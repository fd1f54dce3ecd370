import MarkdownServer.Proofs.Json.Listing
/- White space behind a JSON text changes nothing. Each reader gives the same for a text and for the
   text with white space behind it, except that the white space is left over too. -/
set_option autoImplicit false

namespace MarkdownServer.Json

def Blank (tail : List Char) : Prop := ∀ c ∈ tail, isSpace c = true

theorem space_cases (c : Char) (space : isSpace c = true) :
    c = ' ' ∨ c = '\t' ∨ c = '\n' ∨ c = '\r' := by
  simpa [isSpace, or_assoc] using space

theorem space_not_digit (c : Char) (space : isSpace c = true) : c.isDigit = false := by
  rcases space_cases c space with rfl | rfl | rfl | rfl <;> decide

theorem space_not_hex (c : Char) (space : isSpace c = true) : Text.isDigit 16 c = false := by
  rcases space_cases c space with rfl | rfl | rfl | rfl <;> decide

inductive Extended {α : Type} (tail : List Char) :
    Except Fault (α × List Char) → Except Fault (α × List Char) → Prop where
  | read (value : α) (rest : List Char) : Extended tail (.ok (value, rest)) (.ok (value, rest ++ tail))
  | fails (fault other : Fault) : Extended tail (.error fault) (.error other)

theorem extended_bind {α β : Type} (tail : List Char) (before after : Except Fault (α × List Char))
    (next later : α × List Char → Except Fault (β × List Char)) (extended : Extended tail before after)
    (rest : ∀ value left, Extended tail (next (value, left)) (later (value, left ++ tail))) :
    Extended tail (before >>= next) (after >>= later) := by
  cases extended with
  | read value left => exact rest value left
  | fails fault other => exact .fails fault other

theorem extended_map {α β : Type} (tail : List Char) (before after : Except Fault (α × List Char))
    (change : α → β) (extended : Extended tail before after) :
    Extended tail (before.map fun r => (change r.1, r.2)) (after.map fun r => (change r.1, r.2)) := by
  cases extended with
  | read value left => exact .read (change value) left
  | fails fault other => exact .fails fault other

theorem skip_space_blank (tail : List Char) (blank : Blank tail) : skipSpace tail = [] := by
  unfold skipSpace
  induction tail with
  | nil => rfl
  | cons c tail ih =>
      rw [List.dropWhile_cons_of_pos (blank c List.mem_cons_self)]
      exact ih fun x member => blank x (List.mem_cons_of_mem c member)

theorem skip_space_append (cs tail : List Char) (blank : Blank tail) :
    skipSpace (cs ++ tail) = if skipSpace cs = [] then [] else skipSpace cs ++ tail := by
  induction cs with
  | nil => exact skip_space_blank tail blank
  | cons c cs ih =>
      unfold skipSpace at ih ⊢
      by_cases space : isSpace c = true
      · simpa only [List.cons_append, List.dropWhile_cons_of_pos space] using ih
      · simp [space]

theorem take_digits_append (cs tail : List Char) (blank : Blank tail) :
    (cs ++ tail).takeWhile Char.isDigit = cs.takeWhile Char.isDigit ∧
      (cs ++ tail).dropWhile Char.isDigit = cs.dropWhile Char.isDigit ++ tail := by
  induction cs with
  | nil =>
      cases tail with
      | nil => simp
      | cons c tail => simp [space_not_digit c (blank c List.mem_cons_self)]
  | cons c cs ih =>
      by_cases digit : c.isDigit = true
      · simp [digit, ih.1, ih.2]
      · simp [digit]

theorem read_digits_extended (cs tail : List Char) (blank : Blank tail) :
    Extended tail (readDigits cs) (readDigits (cs ++ tail)) := by
  cases cs with
  | nil =>
      cases tail with
      | nil => exact .fails _ _
      | cons c tail =>
          have digit := space_not_digit c (blank c List.mem_cons_self)
          simp only [readDigits, List.nil_append, digit]
          exact .fails _ _
  | cons c cs =>
      have taken := take_digits_append (c :: cs) tail blank
      simp only [List.cons_append] at taken
      simp only [readDigits, List.cons_append, taken.1, taken.2]
      split
      · exact .read _ _
      · exact .fails _ _

theorem exponent_digits_extended (negative down : Bool) (s : Significand) (cs tail : List Char)
    (blank : Blank tail) (e : List Char → Except Fault (Option Number × List Char))
    (same : e = fun cs => do
      let (digits, rest) ← readDigits cs
      let power : Int := exponentOf digits
      return (some (← Number.ofDecimal negative s (if down then -power else power)), rest)) :
    Extended tail (e cs) (e (cs ++ tail)) := by
  subst same
  apply extended_bind tail _ _ _ _ (read_digits_extended cs tail blank)
  intro digits left
  dsimp only
  cases Number.ofDecimal negative s (if down then -(exponentOf digits : Int) else exponentOf digits) with
  | error fault => exact .fails _ _
  | ok number => exact .read _ _

theorem read_exponent_extended (negative : Bool) (s : Significand) (cs tail : List Char)
    (blank : Blank tail) :
    Extended tail (readExponent negative s cs) (readExponent negative s (cs ++ tail)) := by
  cases cs with
  | nil =>
      cases tail with
      | nil => exact .read none []
      | cons c tail =>
          have plain : ¬ ((decide (c = 'e') || decide (c = 'E')) = true) := by
            rcases space_cases c (blank c List.mem_cons_self) with rfl | rfl | rfl | rfl <;> decide
          simp only [readExponent, List.nil_append, plain]
          exact .read none []
  | cons c cs =>
      simp only [readExponent, List.cons_append]
      split
      · cases cs with
        | nil =>
            cases tail with
            | nil => exact exponent_digits_extended negative false s [] [] blank _ rfl
            | cons d tail =>
                have plus : d ≠ '+' := by
                  rcases space_cases d (blank d List.mem_cons_self) with rfl | rfl | rfl | rfl <;> decide
                have minus : d ≠ '-' := by
                  rcases space_cases d (blank d List.mem_cons_self) with rfl | rfl | rfl | rfl <;> decide
                simpa [plus, minus] using exponent_digits_extended negative false s [] (d :: tail) blank _ rfl
        | cons d cs =>
            by_cases plus : d = '+'
            · subst plus
              exact exponent_digits_extended negative false s cs tail blank _ rfl
            · by_cases minus : d = '-'
              · subst minus
                exact exponent_digits_extended negative true s cs tail blank _ rfl
              · simpa [plus, minus] using exponent_digits_extended negative false s (d :: cs) tail blank _ rfl
      · exact .read none _

theorem number_end_extended (negative : Bool) (s : Significand) (cs tail : List Char)
    (blank : Blank tail) (plain : Except Fault Number) (e : List Char → Except Fault (Number × List Char))
    (same : e = fun cs => do
      match ← readExponent negative s cs with
      | (some n, rest) => return (n, rest)
      | (none, rest) => return (← plain, rest)) :
    Extended tail (e cs) (e (cs ++ tail)) := by
  subst same
  apply extended_bind tail _ _ _ _ (read_exponent_extended negative s cs tail blank)
  intro number left
  cases number with
  | some number => exact .read _ _
  | none =>
      cases plain with
      | error fault => exact .fails _ _
      | ok number => exact .read _ _

theorem read_fraction_plain (negative : Bool) (s : Significand) (cs : List Char)
    (plain : cs.head? ≠ some '.') :
    readFraction negative s cs = do
      match ← readExponent negative s cs with
      | (some n, rest) => return (n, rest)
      | (none, rest) => return (← Number.ofWhole negative s, rest) := by
  unfold readFraction
  split
  · exact absurd rfl plain
  · rfl

theorem read_fraction_extended (negative : Bool) (s : Significand) (cs tail : List Char)
    (blank : Blank tail) :
    Extended tail (readFraction negative s cs) (readFraction negative s (cs ++ tail)) := by
  have whole (cs : List Char) :=
    number_end_extended negative s cs tail blank (Number.ofWhole negative s) _ rfl
  cases cs with
  | nil =>
      cases tail with
      | nil => exact whole []
      | cons c tail =>
          have point : c ≠ '.' := by
            rcases space_cases c (blank c List.mem_cons_self) with rfl | rfl | rfl | rfl <;> decide
          rw [read_fraction_plain negative s [] (by simp), List.nil_append,
            read_fraction_plain negative s (c :: tail) (by simpa using point)]
          exact whole []
  | cons c cs =>
      by_cases point : c = '.'
      · subst point
        simp only [readFraction, List.cons_append]
        apply extended_bind tail _ _ _ _ (read_digits_extended cs tail blank)
        intro digits left
        exact number_end_extended negative _ left tail blank (Number.ofDecimal negative _ 0) _ rfl
      · rw [read_fraction_plain negative s (c :: cs) (by simpa using point), List.cons_append,
          read_fraction_plain negative s (c :: (cs ++ tail)) (by simpa using point)]
        exact whole (c :: cs)

def readUnsigned (negative : Bool) (cs : List Char) : Except Fault (Number × List Char) :=
  match cs with
  | '0' :: rest =>
    if rest.head?.any Char.isDigit then .error .invalidNumber
    else readFraction negative .none rest
  | _ => do
    let (digits, rest) ← readDigits cs
    readFraction negative (digits.foldl Significand.whole .none) rest

theorem read_number_negative (cs : List Char) : readNumber ('-' :: cs) = readUnsigned true cs := rfl

theorem read_number_positive (cs : List Char) (unsigned : cs.head? ≠ some '-') :
    readNumber cs = readUnsigned false cs := by
  unfold readNumber
  split
  rename_i negative rest split
  split at split
  · exact absurd rfl unsigned
  · cases split
    rfl

theorem read_unsigned_extended (negative : Bool) (cs tail : List Char) (blank : Blank tail) :
    Extended tail (readUnsigned negative cs) (readUnsigned negative (cs ++ tail)) := by
  have digits (cs : List Char) (nonzero : cs.head? ≠ some '0') :
      readUnsigned negative cs = (do
        let (digits, rest) ← readDigits cs
        readFraction negative (digits.foldl Significand.whole .none) rest) := by
    unfold readUnsigned
    split
    · exact absurd rfl nonzero
    · rfl
  have general (nonzero : cs.head? ≠ some '0') (later : (cs ++ tail).head? ≠ some '0') :
      Extended tail (readUnsigned negative cs) (readUnsigned negative (cs ++ tail)) := by
    rw [digits cs nonzero, digits (cs ++ tail) later]
    apply extended_bind tail _ _ _ _ (read_digits_extended cs tail blank)
    intro read left
    exact read_fraction_extended negative _ left tail blank
  cases cs with
  | nil =>
      cases tail with
      | nil => exact general (by simp) (by simp)
      | cons c tail =>
          have nonzero : c ≠ '0' := by
            rcases space_cases c (blank c List.mem_cons_self) with rfl | rfl | rfl | rfl <;> decide
          exact general (by simp) (by simpa using nonzero)
  | cons c cs =>
      by_cases zero : c = '0'
      · subst zero
        have heads : (cs ++ tail).head?.any Char.isDigit = cs.head?.any Char.isDigit := by
          cases cs with
          | cons d cs => rfl
          | nil =>
              cases tail with
              | nil => rfl
              | cons d tail => simp [space_not_digit d (blank d List.mem_cons_self)]
        simp only [readUnsigned, List.cons_append, heads]
        split
        · exact .fails _ _
        · exact read_fraction_extended negative .none cs tail blank
      · exact general (by simpa using zero) (by simpa using zero)

theorem read_number_extended (cs tail : List Char) (blank : Blank tail) :
    Extended tail (readNumber cs) (readNumber (cs ++ tail)) := by
  cases cs with
  | nil =>
      have unsigned : tail.head? ≠ some '-' := by
        cases tail with
        | nil => simp
        | cons c tail =>
            rcases space_cases c (blank c List.mem_cons_self) with rfl | rfl | rfl | rfl <;> simp
      rw [List.nil_append, read_number_positive [] (by simp), read_number_positive tail unsigned]
      exact read_unsigned_extended false [] tail blank
  | cons c cs =>
      by_cases minus : c = '-'
      · subst minus
        exact read_unsigned_extended true cs tail blank
      · rw [read_number_positive (c :: cs) (by simpa using minus), List.cons_append,
          read_number_positive (c :: (cs ++ tail)) (by simpa using minus)]
        exact read_unsigned_extended false (c :: cs) tail blank

theorem read_word_extended (word cs tail : List Char) (blank : Blank tail)
    (solid : word.any isSpace = false) (draft : Draft) :
    Extended tail ((readWord word cs).map fun rest => (draft, rest))
      ((readWord word (cs ++ tail)).map fun rest => (draft, rest)) := by
  induction word generalizing cs with
  | nil => exact .read draft cs
  | cons w word ih =>
      obtain ⟨own, others⟩ := Bool.or_eq_false_iff.mp solid
      cases cs with
      | nil =>
          cases tail with
          | nil => exact .fails _ _
          | cons c tail =>
              have other : w ≠ c := by
                rintro rfl
                rw [blank w List.mem_cons_self] at own
                cases own
              simp only [readWord, List.nil_append, other, if_false]
              exact .fails _ _
      | cons c cs =>
          simp only [readWord, List.cons_append]
          split
          · exact ih cs others
          · exact .fails _ _

theorem read_text_blank (state : TextState) (done tail : List Char) (blank : Blank tail) :
    ∃ fault, readText state done tail = .error fault := by
  induction tail generalizing state done with
  | nil => exact ⟨_, rfl⟩
  | cons c tail ih =>
      have space := blank c List.mem_cons_self
      have rest (state : TextState) (done : List Char) :=
        ih state done fun x member => blank x (List.mem_cons_of_mem c member)
      have quote : c ≠ '"' := by rcases space_cases c space with rfl | rfl | rfl | rfl <;> decide
      have slash : c ≠ '\\' := by rcases space_cases c space with rfl | rfl | rfl | rfl <;> decide
      have unicode : c ≠ 'u' := by rcases space_cases c space with rfl | rfl | rfl | rfl <;> decide
      have escape : escape? c = none := by
        rcases space_cases c space with rfl | rfl | rfl | rfl <;> decide
      cases state with
      | plain =>
          simp only [readText, quote, slash, if_false]
          split
          · exact ⟨_, rfl⟩
          · exact rest _ _
      | escaped => exact ⟨_, by simp only [readText, unicode, if_false, escape]; rfl⟩
      | digits high read =>
          have closed : closeEscape high (c :: read) = .error .invalidEscape := by
            have number : hexNumber? (c :: read).reverse = none := by
              simp [hexNumber?, space_not_hex c space]
            unfold closeEscape
            rw [number]
          simp only [readText, closed]
          split
          · exact ⟨_, rfl⟩
          · exact rest _ _
      | paired high => exact ⟨_, by simp only [readText, slash, if_false]; rfl⟩
      | pairedEscaped high => exact ⟨_, by simp only [readText, unicode, if_false]; rfl⟩

theorem read_text_extended (state : TextState) (done cs tail : List Char) (blank : Blank tail) :
    Extended tail (readText state done cs) (readText state done (cs ++ tail)) := by
  induction cs generalizing state done with
  | nil =>
      obtain ⟨fault, failed⟩ := read_text_blank state done tail blank
      rw [List.nil_append, failed]
      exact .fails _ _
  | cons c cs ih =>
      cases state with
      | plain =>
          simp only [readText, List.cons_append]
          split
          · exact .read _ _
          · split
            · exact ih _ _
            · split
              · exact .fails _ _
              · exact ih _ _
      | escaped =>
          simp only [readText, List.cons_append]
          split
          · exact ih _ _
          · cases escape? c with
            | none => exact .fails _ _
            | some e => exact ih _ _
      | digits high read =>
          simp only [readText, List.cons_append]
          split
          · cases closeEscape high (c :: read) with
            | error fault => exact .fails _ _
            | ok meant => cases meant <;> exact ih _ _
          · exact ih _ _
      | paired high =>
          simp only [readText, List.cons_append]
          split
          · exact ih _ _
          · exact .fails _ _
      | pairedEscaped high =>
          simp only [readText, List.cons_append]
          split
          · exact ih _ _
          · exact .fails _ _

theorem read_colon_extended (cs tail : List Char) (blank : Blank tail) :
    (∃ rest, readColon cs = .ok rest ∧ readColon (cs ++ tail) = .ok (rest ++ tail)) ∨
      ∃ fault other, readColon cs = .error fault ∧ readColon (cs ++ tail) = .error other := by
  unfold readColon
  rw [skip_space_append cs tail blank]
  cases skipSpace cs with
  | nil => exact .inr ⟨_, _, rfl, rfl⟩
  | cons c rest =>
      rw [if_neg (List.cons_ne_nil c rest), List.cons_append]
      by_cases colon : c = ':'
      · subst colon
        exact .inl ⟨rest, rfl, rfl⟩
      · exact .inr ⟨.expectedColon, .expectedColon, by simp [colon], by simp [colon]⟩

-- The same for readings: a draft that stops at a fault leaves nothing over.
inductive ExtendedReading (tail : List Char) : Reading → Reading → Prop where
  | read (draft : Draft) (rest : List Char) :
      ExtendedReading tail (draft, some rest) (draft, some (rest ++ tail))
  | fails (draft other : Draft) : ExtendedReading tail (draft, none) (other, none)

theorem of_except_extended (tail : List Char) (before after : Except Fault (Draft × List Char))
    (extended : Extended tail before after) :
    ExtendedReading tail (Reading.ofExcept before) (Reading.ofExcept after) := by
  cases extended with
  | read draft rest => exact .read draft rest
  | fails fault other => exact .fails _ _

theorem read_scalar_extended (c : Char) (cs tail : List Char) (blank : Blank tail) :
    ExtendedReading tail (readScalar (c :: cs)) (readScalar (c :: cs ++ tail)) := by
  rw [List.cons_append, read_scalar_cons, read_scalar_cons]
  apply of_except_extended
  split
  · exact read_word_extended _ cs tail blank (by decide) _
  split
  · exact read_word_extended _ cs tail blank (by decide) _
  split
  · exact read_word_extended _ cs tail blank (by decide) _
  split
  · exact extended_map tail _ _ Draft.text (read_text_extended .plain [] cs tail blank)
  split
  · exact extended_map tail _ _ Draft.number (read_number_extended (c :: cs) tail blank)
  · exact .fails _ _

theorem listing_extended (listing : Listing) (entry : List Char → Reading) (first : Bool)
    (cs tail : List Char) (blank : Blank tail)
    (each : ∀ c rest, ExtendedReading tail (entry (c :: rest)) (entry (c :: rest ++ tail))) :
    ExtendedReading tail (listing.read entry first (skipSpace cs))
      (listing.read entry first (skipSpace (cs ++ tail))) := by
  rw [skip_space_append cs tail blank]
  cases skipSpace cs with
  | nil => exact .fails _ _
  | cons c rest =>
      rw [if_neg (List.cons_ne_nil c rest)]
      dsimp only [Listing.read, List.cons_append]
      split
      · exact .read _ rest
      split
      · exact each c rest
      split
      · rw [skip_space_append rest tail blank]
        cases skipSpace rest with
        | nil => exact .fails _ _
        | cons d rest =>
            rw [if_neg (List.cons_ne_nil d rest)]
            dsimp only [List.cons_append]
            split
            · exact .fails _ _
            · exact each d rest
      · exact .fails _ _

structure ReadersExtended (tail : List Char) (steps : Nat) : Prop where
  value : ∀ depth cs, ExtendedReading tail (readValue steps depth cs) (readValue steps depth (cs ++ tail))
  items : ∀ depth first done cs,
    ExtendedReading tail (readItems steps depth first done cs) (readItems steps depth first done (cs ++ tail))
  members : ∀ depth first done cs, ExtendedReading tail (readMembers steps depth first done cs)
    (readMembers steps depth first done (cs ++ tail))

section
variable {tail : List Char} {steps : Nat}

theorem read_value_extended (blank : Blank tail) (inner : ReadersExtended tail steps) (depth : Nat)
    (cs : List Char) : ExtendedReading tail (readValue (steps + 1) depth cs)
      (readValue (steps + 1) depth (cs ++ tail)) := by
  have skips := skip_space_append cs tail blank
  cases skipped : skipSpace cs with
  | nil =>
      rw [if_pos skipped] at skips
      rw [read_value_nil steps depth cs skipped, read_value_nil steps depth (cs ++ tail) skips]
      exact .fails _ _
  | cons c rest =>
      rw [skipped, if_neg (List.cons_ne_nil c rest)] at skips
      rw [read_value_cons steps depth cs rest c skipped,
        read_value_cons steps depth (cs ++ tail) (rest ++ tail) c skips]
      split
      · split
        · exact .fails _ _
        · exact inner.items (depth - 1) true [] rest
      split
      · split
        · exact .fails _ _
        · exact inner.members (depth - 1) true [] rest
      · exact read_scalar_extended c rest tail blank

theorem read_item_extended (inner : ReadersExtended tail steps) (depth : Nat) (done : List Draft)
    (cs : List Char) :
    ExtendedReading tail (readItem steps depth done cs) (readItem steps depth done (cs ++ tail)) := by
  unfold readItem
  have value := inner.value depth cs
  generalize readValue steps depth cs = before at value ⊢
  generalize readValue steps depth (cs ++ tail) = after at value ⊢
  cases value with
  | read draft rest => exact inner.items depth false (draft :: done) rest
  | fails draft other => exact .fails _ _

theorem read_named_extended (blank : Blank tail) (inner : ReadersExtended tail steps) (depth : Nat)
    (done : List (Draft × Draft)) (cs : List Char) :
    ExtendedReading tail (readNamed steps depth done cs) (readNamed steps depth done (cs ++ tail)) := by
  have text := read_text_extended .plain [] cs tail blank
  unfold readNamed
  generalize readText .plain [] cs = before at text ⊢
  generalize readText .plain [] (cs ++ tail) = after at text ⊢
  cases text with
  | fails fault other => exact .fails _ _
  | read name left =>
      dsimp only
      obtain ⟨rest, here, later⟩ | ⟨fault, other, here, later⟩ := read_colon_extended left tail blank
      · rw [here, later]
        have value := inner.value depth rest
        dsimp only
        generalize readValue steps depth rest = before at value ⊢
        generalize readValue steps depth (rest ++ tail) = after at value ⊢
        cases value with
        | fails draft other => exact .fails _ _
        | read draft rest => exact inner.members depth false ((.text name, draft) :: done) rest
      · rw [here, later]
        exact .fails _ _

theorem read_member_extended (blank : Blank tail) (inner : ReadersExtended tail steps) (depth : Nat)
    (done : List (Draft × Draft)) (c : Char) (cs : List Char) :
    ExtendedReading tail (readMember steps depth done (c :: cs))
      (readMember steps depth done (c :: cs ++ tail)) := by
  by_cases quote : c = '"'
  · subst quote
    exact read_named_extended blank inner depth done cs
  · rw [List.cons_append, read_member_unnamed steps depth done c cs quote,
      read_member_unnamed steps depth done c (cs ++ tail) quote]
    exact .fails _ _

end

theorem readers_extended (tail : List Char) (blank : Blank tail) (steps : Nat) :
    ReadersExtended tail steps := by
  induction steps with
  | zero => exact ⟨fun _ _ => .fails _ _, fun _ _ _ _ => .fails _ _, fun _ _ _ _ => .fails _ _⟩
  | succ steps ih =>
      refine ⟨read_value_extended blank ih, fun depth first done cs => ?_, fun depth first done cs => ?_⟩
      · rw [read_items_listing, read_items_listing]
        exact listing_extended _ _ first cs tail blank fun c rest =>
          read_item_extended ih depth done (c :: rest)
      · rw [read_members_listing, read_members_listing]
        exact listing_extended _ _ first cs tail blank fun c rest =>
          read_member_extended blank ih depth done c rest

end MarkdownServer.Json
