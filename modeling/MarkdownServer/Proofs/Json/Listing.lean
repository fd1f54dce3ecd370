import MarkdownServer.Json.Draft
/- The readers of values by the character they start at. Arrays and objects list their entries in one
   way: they differ in the closing character, in some faults, and in what an entry is. -/
set_option autoImplicit false

namespace MarkdownServer.Json

def Reading.ofExcept : Except Fault (Draft × List Char) → Reading
  | .ok (draft, rest) => (draft, some rest)
  | .error fault => .stopped fault

theorem read_scalar_cons (c : Char) (cs : List Char) :
    readScalar (c :: cs) = Reading.ofExcept
      (if c = 'n' then (readWord "ull".toList cs).map fun rest => (Draft.null, rest)
      else if c = 't' then (readWord "rue".toList cs).map fun rest => (Draft.boolean true, rest)
      else if c = 'f' then (readWord "alse".toList cs).map fun rest => (Draft.boolean false, rest)
      else if c = '"' then (readText .plain [] cs).map fun r => (Draft.text r.1, r.2)
      else if c = '-' || c.isDigit then (readNumber (c :: cs)).map fun r => (Draft.number r.1, r.2)
      else .error .expectedValue) := by
  by_cases null : c = 'n'
  · subst null
    rw [if_pos rfl]
    change Reading.ofExcept (do return (Draft.null, ← readWord "ull".toList cs)) = _
    cases readWord "ull".toList cs <;> rfl
  rw [if_neg null]
  by_cases yes : c = 't'
  · subst yes
    rw [if_pos rfl]
    change Reading.ofExcept (do return (Draft.boolean true, ← readWord "rue".toList cs)) = _
    cases readWord "rue".toList cs <;> rfl
  rw [if_neg yes]
  by_cases no : c = 'f'
  · subst no
    rw [if_pos rfl]
    change Reading.ofExcept (do return (Draft.boolean false, ← readWord "alse".toList cs)) = _
    cases readWord "alse".toList cs <;> rfl
  rw [if_neg no]
  by_cases text : c = '"'
  · subst text
    rw [if_pos rfl]
    rfl
  rw [if_neg text]
  unfold readScalar
  split
  · rename_i same
    cases same
  · rename_i same
    exact absurd (List.cons.inj same).1 null
  · rename_i same
    exact absurd (List.cons.inj same).1 yes
  · rename_i same
    exact absurd (List.cons.inj same).1 no
  · rename_i same
    exact absurd (List.cons.inj same).1 text
  · rename_i same
    cases same
    rfl

theorem read_value_nil (steps depth : Nat) (cs : List Char) (skipped : skipSpace cs = []) :
    readValue (steps + 1) depth cs = .stopped .endInValue := by
  rw [readValue, skipped]
  rfl

theorem read_value_cons (steps depth : Nat) (cs rest : List Char) (c : Char)
    (skipped : skipSpace cs = c :: rest) :
    readValue (steps + 1) depth cs =
      if c = '[' then
        if depth ≤ 1 then (.array [] (some .tooDeep), none)
        else readItems steps (depth - 1) true [] rest
      else if c = '\x7b' then
        if depth ≤ 1 then (.object [] (some .tooDeep), none)
        else readMembers steps (depth - 1) true [] rest
      else readScalar (c :: rest) := by
  rw [readValue, skipped]
  by_cases array : c = '['
  · subst array
    rfl
  rw [if_neg array]
  by_cases object : c = '\x7b'
  · subst object
    rfl
  rw [if_neg object]
  split
  · rename_i same
    exact absurd (List.cons.inj same).1 array
  · rename_i same
    exact absurd (List.cons.inj same).1 object
  · rfl

-- `made` is the draft of the entries so far, with what is wrong behind them.
structure Listing where
  close : Char
  made : Option Fault → Draft
  ended : Fault
  separator : Fault

namespace Listing

def read (listing : Listing) (entry : List Char → Reading) (first : Bool) : List Char → Reading
  | [] => (listing.made (some listing.ended), none)
  | c :: rest =>
      if c = listing.close then (listing.made none, some rest)
      else if first then entry (c :: rest)
      else if c = ',' then
        match skipSpace rest with
        | [] => (listing.made (some .endInValue), none)
        | d :: rest =>
            if d = listing.close then (listing.made (some .trailingComma), none) else entry (d :: rest)
      else (listing.made (some listing.separator), none)

def items (done : List Draft) : Listing :=
  ⟨']', .array done.reverse, .endInArray, .expectedCommaOrBracket⟩

def members (done : List (Draft × Draft)) : Listing :=
  ⟨'\x7d', .object done.reverse, .endInObject, .expectedCommaOrBrace⟩

end Listing

def readItem (steps depth : Nat) (done : List Draft) (cs : List Char) : Reading :=
  match readValue steps depth cs with
  | (draft, some rest) => readItems steps depth false (draft :: done) rest
  | (draft, none) => (.array (draft :: done).reverse none, none)

theorem read_items_listing (steps depth : Nat) (first : Bool) (done : List Draft) (cs : List Char) :
    readItems (steps + 1) depth first done cs =
      (Listing.items done).read (readItem steps depth done) first (skipSpace cs) := by
  rw [readItems]
  split
  · rename_i skipped
    rw [skipped]
    rfl
  · rename_i skipped
    rw [skipped]
    rfl
  · rename_i c rest other skipped
    rw [skipped]
    dsimp only [Listing.read, Listing.items]
    rw [if_neg other]
    cases first with
    | true => rfl
    | false =>
        by_cases comma : c = ','
        · rw [if_neg (by decide), if_pos comma, if_neg (by decide), if_pos comma]
          cases skipSpace rest with
          | nil => rfl
          | cons d rest =>
              by_cases trailing : d = ']'
              · subst trailing
                rfl
              · dsimp only
                rw [if_neg trailing]
                split
                · rename_i same
                  cases same
                · rename_i same
                  exact absurd (List.cons.inj same).1 trailing
                · rfl
        · rw [if_neg (by decide), if_neg comma, if_neg (by decide), if_neg comma]

def readNamed (steps depth : Nat) (done : List (Draft × Draft)) (cs : List Char) : Reading :=
  match readText .plain [] cs with
  | .error fault => (.object ((.broken fault, .broken fault) :: done).reverse none, none)
  | .ok (name, rest) =>
    match readColon rest with
    | .error fault => (.object ((.text name, .broken fault) :: done).reverse none, none)
    | .ok rest =>
      match readValue steps depth rest with
      | (draft, some rest) => readMembers steps depth false ((.text name, draft) :: done) rest
      | (draft, none) => (.object ((.text name, draft) :: done).reverse none, none)

def readMember (steps depth : Nat) (done : List (Draft × Draft)) (cs : List Char) : Reading :=
  match cs with
  | '"' :: rest => readNamed steps depth done rest
  | cs => (.object (((readValue steps depth cs).1, .broken .keyNotText) :: done).reverse none, none)

theorem read_member_unnamed (steps depth : Nat) (done : List (Draft × Draft)) (c : Char)
    (cs : List Char) (quote : c ≠ '"') :
    readMember steps depth done (c :: cs) =
      (.object (((readValue steps depth (c :: cs)).1, .broken .keyNotText) :: done).reverse none,
        none) := by
  unfold readMember
  split
  · rename_i same
    exact absurd (List.cons.inj same).1 quote
  · rfl

theorem read_members_listing (steps depth : Nat) (first : Bool) (done : List (Draft × Draft))
    (cs : List Char) :
    readMembers (steps + 1) depth first done cs =
      (Listing.members done).read (readMember steps depth done) first (skipSpace cs) := by
  rw [readMembers]
  split
  · rename_i skipped
    rw [skipped]
    rfl
  · rename_i skipped
    rw [skipped]
    rfl
  · rename_i c rest other skipped
    rw [skipped]
    dsimp only [Listing.read, Listing.members]
    rw [if_neg other]
    cases first with
    | true => rfl
    | false =>
        by_cases comma : c = ','
        · rw [if_neg (by decide), if_pos comma, if_neg (by decide), if_pos comma]
          cases skipSpace rest with
          | nil => rfl
          | cons d rest =>
              by_cases trailing : d = '\x7d'
              · subst trailing
                rfl
              · dsimp only
                rw [if_neg trailing]
                split
                · rename_i same
                  cases same
                · rename_i same
                  exact absurd (List.cons.inj same).1 trailing
                · rfl
        · rw [if_neg (by decide), if_neg comma, if_neg (by decide), if_neg comma]

end MarkdownServer.Json
