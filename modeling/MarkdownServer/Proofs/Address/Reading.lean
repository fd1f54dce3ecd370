import MarkdownServer.Proofs.Address.Grammar
/- The reader of addresses takes just the texts of the grammar. -/
set_option autoImplicit false

namespace MarkdownServer.Address

open Text (isDigit ofDigits)

def Stops (base : Nat) (rest : List Char) : Prop := rest.head?.any (isDigit base) = false

theorem take_digits (base : Nat) (digits rest : List Char) (digit : ∀ d ∈ digits, isDigit base d = true)
    (stops : Stops base rest) : (digits ++ rest).takeWhile (isDigit base) = digits ∧
      (digits ++ rest).dropWhile (isDigit base) = rest := by
  rw [List.takeWhile_append_of_pos digit, List.dropWhile_append_of_pos digit]
  cases rest with
  | nil => simp
  | cons c rest =>
      have other : ¬ isDigit base c = true := by simpa [Stops] using stops
      simp [other]

theorem read_number_iff (base bound n : Nat) (cs rest : List Char) :
    readNumber base bound cs = some (n, rest) ↔
      ∃ digits, cs = digits ++ rest ∧ Numeral base n digits ∧ n < bound ∧ Stops base rest := by
  unfold readNumber
  dsimp only
  constructor
  · intro read
    split at read
    · cases read
    · rename_i fits
      cases read
      simp only [Bool.or_eq_true, List.isEmpty_iff, decide_eq_true_eq, not_or, Nat.not_le] at fits
      refine ⟨_, List.takeWhile_append_dropWhile.symm,
        ⟨fits.1, fun d member => List.all_eq_true.mp List.all_takeWhile d member, rfl⟩, fits.2, ?_⟩
      have solid := List.head?_dropWhile_not (isDigit base) cs
      unfold Stops
      cases first : (cs.dropWhile (isDigit base)).head? with
      | none => rfl
      | some c => simpa [first] using solid
  · rintro ⟨digits, rfl, ⟨nonempty, digit, rfl⟩, small, stops⟩
    obtain ⟨taken, left⟩ := take_digits base digits rest digit stops
    rw [taken, left, if_neg]
    simp [nonempty, small]

theorem read_char_iff (c : Char) (cs rest : List Char) :
    readChar c cs = some rest ↔ cs = c :: rest := by
  cases cs with
  | nil => simp [readChar]
  | cons d cs =>
      rw [readChar]
      split
      · rename_i same
        simp [same]
      · rename_i other
        simp [Ne.symm other]

theorem leading_iff (digits rest : List Char) (nonempty : digits ≠ []) :
    ((digits ++ rest).head? = some '0' && decide (rest.length + 1 < (digits ++ rest).length)) = false ↔
      (digits.head? = some '0' → digits = ['0']) := by
  cases digits with
  | nil => exact absurd rfl nonempty
  | cons d ds =>
      cases ds with
      | nil => simp
      | cons e ds =>
          have longer : rest.length + 1 < (d :: e :: ds ++ rest).length := by
            rw [List.length_append, List.length_cons, List.length_cons]
            omega
          rw [decide_eq_true longer]
          simp

theorem read_octet_iff (n : Nat) (cs rest : List Char) :
    readOctet cs = some (n, rest) ↔ ∃ digits, cs = digits ++ rest ∧ OctetText n digits ∧ Stops 10 rest := by
  unfold readOctet
  constructor
  · intro read
    obtain ⟨⟨m, left⟩, taken, read⟩ := Option.bind_eq_some_iff.mp read
    obtain ⟨digits, rfl, numeral, small, stops⟩ := (read_number_iff 10 256 m cs left).mp taken
    dsimp only at read
    split at read
    · cases read
    · rename_i leading
      cases read
      have leading := (leading_iff digits rest numeral.nonempty).mp (Bool.eq_false_iff.mpr leading)
      exact ⟨digits, rfl, ⟨numeral, small, leading⟩, stops⟩
  · rintro ⟨digits, rfl, ⟨numeral, small, leading⟩, stops⟩
    have taken := (read_number_iff 10 256 n _ rest).mpr ⟨digits, rfl, numeral, small, stops⟩
    rw [taken]
    have leading := (leading_iff digits rest numeral.nonempty).mpr leading
    exact if_neg (Bool.eq_false_iff.mp leading)

theorem octet_number (n : Nat) (digits : List Char) (text : OctetText n digits) :
    OctetText n.toUInt8.toNat digits := by
  have same : n.toUInt8.toNat = n := UInt8.toNat_ofNat_of_lt' text.small
  rwa [same]

theorem read_octets_iff (octets : Vector UInt8 4) (cs rest : List Char) :
    readOctets cs = some (octets, rest) ↔
      ∃ text, cs = text ++ rest ∧ OctetsText octets text ∧ Stops 10 rest := by
  simp only [readOctets, bind, pure, Option.bind_eq_some_iff, Prod.exists, read_octet_iff, read_char_iff,
    Option.some.injEq, Prod.mk.injEq]
  constructor
  · rintro ⟨k, _, ⟨a, rfl, first, -⟩, _, rfl, l, _, ⟨b, rfl, second, -⟩, _, rfl, m, _, ⟨c, rfl, third, -⟩, _,
      rfl, n, _, ⟨d, rfl, fourth, stops⟩, rfl, rfl⟩
    refine ⟨a ++ '.' :: b ++ '.' :: c ++ '.' :: d, by simp, ?_, stops⟩
    exact .mk _ _ _ _ a b c d (octet_number k a first) (octet_number l b second) (octet_number m c third)
      (octet_number n d fourth)
  · rintro ⟨_, rfl, ⟨o, p, q, r, a, b, c, d, first, second, third, fourth⟩, stops⟩
    refine ⟨o.toNat, '.' :: (b ++ '.' :: (c ++ '.' :: (d ++ rest))), ⟨a, by simp, first, rfl⟩, _, rfl,
      p.toNat, '.' :: (c ++ '.' :: (d ++ rest)), ⟨b, rfl, second, rfl⟩, _, rfl,
      q.toNat, '.' :: (d ++ rest), ⟨c, rfl, third, rfl⟩, _, rfl,
      r.toNat, rest, ⟨d, rfl, fourth, stops⟩, by simp, rfl⟩

theorem read_group_iff (g : UInt16) (cs rest : List Char) :
    readGroup cs = some (g, rest) ↔
      ∃ digits, cs = digits ++ rest ∧ GroupText g.toNat digits ∧ Stops 16 rest := by
  unfold readGroup
  constructor
  · intro read
    obtain ⟨⟨n, left⟩, taken, read⟩ := Option.bind_eq_some_iff.mp read
    obtain ⟨digits, rfl, numeral, small, stops⟩ := (read_number_iff 16 65536 n cs left).mp taken
    dsimp only at read
    split at read
    · cases read
    · rename_i short
      cases read
      have same : n.toUInt16.toNat = n := UInt16.toNat_ofNat_of_lt' small
      have short : digits.length ≤ 4 := by
        rw [List.length_append] at short
        omega
      exact ⟨digits, rfl, ⟨same.symm ▸ numeral, short⟩, stops⟩
  · rintro ⟨digits, rfl, ⟨numeral, short⟩, stops⟩
    have taken := (read_number_iff 16 65536 g.toNat _ rest).mpr ⟨digits, rfl, numeral, g.toNat_lt, stops⟩
    have short : ¬ rest.length + 4 < (digits ++ rest).length := by
      rw [List.length_append]
      omega
    rw [taken]
    exact (if_neg short).trans (by simp)

theorem decimal_hex (c : Char) (digit : isDigit 10 c = true) : isDigit 16 c = true := by
  simp only [isDigit, Text.digit?] at *
  grind

theorem stops_decimal (rest : List Char) (stops : Stops 16 rest) : Stops 10 rest := by
  cases rest with
  | nil => rfl
  | cons c rest => exact Bool.eq_false_iff.mpr fun digit => Bool.eq_false_iff.mp stops (decimal_hex c digit)

-- Digits in front of something else than a point are not the first octet of four.
theorem group_not_octets (digits rest : List Char) (digit : ∀ d ∈ digits, isDigit 16 d = true)
    (stops : Stops 16 rest) (other : rest.head? ≠ some '.') : readOctets (digits ++ rest) = none := by
  rw [Option.eq_none_iff_forall_not_mem]
  rintro ⟨octets, left⟩ read
  obtain ⟨_, same, ⟨_, _, _, _, a, b, c, d, first, -, -, -⟩, -⟩ := (read_octets_iff octets _ left).mp read
  have point : Stops 16 ('.' :: (b ++ '.' :: (c ++ '.' :: (d ++ left)))) := rfl
  have octet := take_digits 16 a _ (fun d member => decimal_hex d (first.numeral.digit d member)) point
  have group := take_digits 16 digits rest digit stops
  have same : digits ++ rest = a ++ '.' :: (b ++ '.' :: (c ++ '.' :: (d ++ left))) := by simpa using same
  rw [same, octet.2] at group
  exact other (group.2 ▸ rfl)

def opened (first : Bool) (text : List Char) : List Char := if first then text else ':' :: text

theorem opened_iff (first : Bool) (cs start : List Char) :
    (if first then some cs else readChar ':' cs) = some start ↔ cs = opened first start := by
  cases first with
  | false => exact read_char_iff ':' cs start
  | true => simp [opened]

theorem opened_append (first : Bool) (text rest : List Char) :
    opened first text ++ rest = opened first (text ++ rest) := by
  cases first <;> rfl

theorem read_groups_sound (first : Bool) (room : Nat) (cs : List Char) :
    readGroups first room cs = ⟨[], false, cs⟩ ∨
      ∃ text, cs = opened first text ++ (readGroups first room cs).rest ∧
        GroupsText (readGroups first room cs).groups (readGroups first room cs).octets text := by
  induction room generalizing first cs with
  | zero => exact .inl rfl
  | succ room ih =>
      rw [readGroups]
      split
      · exact .inl rfl
      · rename_i start begins
        rw [(opened_iff first cs start).mp begins]
        split
        · rename_i octets rest read
          split at read
          · cases read
          · obtain ⟨text, rfl, written, -⟩ := (read_octets_iff octets start rest).mp read
            exact .inr ⟨text, (opened_append first text rest).symm, .octets octets text written⟩
        · split
          · exact .inl rfl
          · rename_i g rest read
            obtain ⟨digits, rfl, group, -⟩ := (read_group_iff g start rest).mp read
            refine .inr ?_
            obtain idle | ⟨text, same, others⟩ := ih false rest
            · rw [idle]
              exact ⟨digits, (opened_append first digits rest).symm, .last g digits group⟩
            · refine ⟨digits ++ ':' :: text, ?_, .cons g digits _ _ text group others⟩
              rw [opened_append]
              have same : rest = ':' :: text ++ (readGroups false room rest).rest := same
              conv => lhs; rw [same]
              simp

theorem read_groups_fit (first : Bool) (room : Nat) (cs : List Char) :
    (readGroups first room cs).groups.length ≤ room := by
  induction room generalizing first cs with
  | zero => exact Nat.le_refl 0
  | succ room ih =>
      rw [readGroups]
      split
      · simp
      · split
        · rename_i octets rest read
          split at read
          · cases read
          · simp [groupsOf]
            omega
        · split
          · simp
          · rename_i g rest _
            exact Nat.succ_le_succ (ih false rest)

-- No group starts here, neither with a colon in front of it nor without one.
structure Idle (rest : List Char) : Prop where
  stops : Stops 16 rest
  point : rest.head? ≠ some '.'
  colon : ∀ behind, rest = ':' :: behind → Stops 16 behind

theorem read_groups_idle (first : Bool) (room : Nat) (start : List Char) (stops : Stops 16 start) :
    readGroups first room (opened first start) = ⟨[], false, opened first start⟩ := by
  have numbers (base bound : Nat) (stops : Stops base start) : readNumber base bound start = none := by
    cases start with
    | nil => rfl
    | cons c start => simp [readNumber, show isDigit base c = false from stops]
  cases room with
  | zero => rfl
  | succ room =>
      rw [readGroups, (opened_iff first _ start).mpr rfl]
      simp [readOctets, readOctet, readGroup, numbers 16 65536 stops,
        numbers 10 256 (stops_decimal start stops)]

theorem read_more_idle (room : Nat) (rest : List Char) (idle : Idle rest) :
    readGroups false room rest = ⟨[], false, rest⟩ := by
  cases begins : readChar ':' rest with
  | some start =>
      obtain rfl := (read_char_iff ':' rest start).mp begins
      exact read_groups_idle false room start (idle.colon start rfl)
  | none =>
      cases room with
      | zero => rfl
      | succ room => simp [readGroups, begins]

theorem read_groups_complete (groups : List UInt16) (octets : Bool) (text : List Char)
    (written : GroupsText groups octets text) (first : Bool) (room : Nat) (rest : List Char)
    (idle : Idle rest) (fits : groups.length ≤ room) :
    readGroups first room (opened first (text ++ rest)) = ⟨groups, octets, rest⟩ := by
  induction written generalizing first room with
  | last g digits group =>
      obtain ⟨room, rfl⟩ : ∃ k, room = k + 1 := ⟨room - 1, by simp at fits; omega⟩
      have read := (read_group_iff g _ rest).mpr ⟨digits, rfl, group, idle.stops⟩
      rw [readGroups, (opened_iff first _ _).mpr rfl]
      simp only [group_not_octets digits rest group.numeral.digit idle.stops idle.point, read, ite_self,
        read_more_idle room rest idle]
  | octets octets text four =>
      obtain ⟨room, rfl⟩ : ∃ k, room = k + 2 := ⟨room - 2, by simp [groupsOf] at fits; omega⟩
      have read := (read_octets_iff octets _ rest).mpr ⟨text, rfl, four, stops_decimal rest idle.stops⟩
      rw [readGroups, (opened_iff first _ _).mpr rfl]
      simp [read]
  | cons g digits more octets text group others ih =>
      obtain ⟨room, rfl⟩ : ∃ k, room = k + 1 := ⟨room - 1, by simp at fits; omega⟩
      have colon : Stops 16 (':' :: (text ++ rest)) := rfl
      have read := (read_group_iff g _ _).mpr ⟨digits, rfl, group, colon⟩
      have later := ih false room (Nat.le_of_succ_le_succ fits)
      rw [List.append_assoc, List.cons_append, readGroups, (opened_iff first _ _).mpr rfl]
      simp only [group_not_octets digits _ group.numeral.digit colon (by simp), read, ite_self]
      rw [show ':' :: (text ++ rest) = opened false (text ++ rest) from rfl, later]

theorem filled_groups (groups : List UInt16) (eight : groups.length = 8) :
    (Vector.ofFn fun i : Fin 8 => groups.getD i 0).toList = groups := by
  rw [Vector.toList_ofFn]
  apply List.ext_getElem
  · simp [eight]
  · intro i small there
    rw [List.getElem_ofFn]
    simp [there]

theorem some_groups_sound (room : Nat) (cs : List Char) :
    ∃ text, cs = text ++ (readGroups true room cs).rest ∧
      SomeGroups (readGroups true room cs).groups (readGroups true room cs).octets text := by
  obtain idle | ⟨text, read, written⟩ := read_groups_sound true room cs
  · rw [idle]
    exact ⟨[], rfl, .none⟩
  · exact ⟨text, read, .some _ _ text written⟩

theorem some_groups_complete (groups : List UInt16) (octets : Bool) (text : List Char)
    (written : SomeGroups groups octets text) (room : Nat) (rest : List Char) (idle : Idle rest)
    (fits : groups.length ≤ room) : readGroups true room (text ++ rest) = ⟨groups, octets, rest⟩ := by
  cases written with
  | none => exact read_groups_idle true room rest idle.stops
  | some _ _ _ written => exact read_groups_complete groups octets text written true room rest idle fits

theorem groups_written (groups : List UInt16) (octets : Bool) (text : List Char)
    (written : SomeGroups groups octets text) (nonempty : groups ≠ []) : GroupsText groups octets text := by
  cases written with
  | none => exact absurd rfl nonempty
  | some _ _ _ written => exact written

theorem read_v6_sound (groups : Vector UInt16 8) (cs rest : List Char)
    (read : readV6 cs = some (groups, rest)) :
    ∃ text, cs = text ++ rest ∧ V6Text groups.toList text := by
  obtain ⟨head, same, before⟩ := some_groups_sound 8 cs
  have room := read_groups_fit true 8 cs
  unfold readV6 at read
  dsimp only at read
  split at read
  · rename_i full
    cases read
    have nonempty : (readGroups true 8 cs).groups ≠ [] := fun empty => by simp [empty] at full
    exact ⟨head, same, .full _ _ head (groups_written _ _ head before nonempty) full⟩
  · rename_i few
    split at read
    · cases read
    · rename_i plain
      rw [Bool.eq_false_iff.mpr plain] at before
      generalize (readGroups true 8 cs).groups = front at *
      simp only [bind, pure, Option.bind_eq_some_iff, read_char_iff, Option.some.injEq, Prod.mk.injEq] at read
      obtain ⟨_, first, behind, rfl, rfl, rfl⟩ := read
      obtain ⟨tail, same', after⟩ := some_groups_sound (7 - front.length) behind
      have room' := read_groups_fit true (7 - front.length) behind
      generalize readGroups true (7 - front.length) behind = found at *
      obtain ⟨back, octets, rest⟩ := found
      dsimp only at same' after room' ⊢
      refine ⟨head ++ ':' :: ':' :: tail, by rw [same, first, same']; simp, ?_⟩
      rw [filled_groups _ (by simp; omega)]
      exact .short front back octets head tail before after (by omega)

def Closes (rest : List Char) : Prop := ∃ behind, rest = '%' :: behind ∨ rest = ']' :: behind

theorem closes_idle (rest : List Char) (closes : Closes rest) : Idle rest := by
  obtain ⟨behind, rfl | rfl⟩ := closes
  · exact ⟨rfl, by simp, by simp⟩
  · exact ⟨rfl, by simp, by simp⟩

theorem colons_idle (rest : List Char) : Idle (':' :: ':' :: rest) :=
  ⟨rfl, by simp, fun behind same => by cases same; rfl⟩

theorem read_v6_complete (groups : Vector UInt16 8) (text rest : List Char)
    (written : V6Text groups.toList text) (closes : Closes rest) : readV6 (text ++ rest) = some (groups, rest) := by
  have idle := closes_idle rest closes
  generalize same : groups.toList = listed at written
  unfold readV6
  cases written with
  | full _ octets _ written eight =>
      have read := some_groups_complete listed octets text (.some _ _ _ written) 8 rest idle (by omega)
      simp only [read, eight, dite_true]
      have same : (⟨listed.toArray, by simpa using eight⟩ : Vector UInt16 8) = groups :=
        Vector.toList_inj.mp same.symm
      rw [same]
  | short front back octets head tail before after fewer =>
      have first := some_groups_complete front false head before 8 _ (colons_idle (tail ++ rest)) (by omega)
      have second := some_groups_complete back octets tail after (7 - front.length) rest idle (by omega)
      have shape : head ++ ':' :: ':' :: tail ++ rest = head ++ ':' :: ':' :: (tail ++ rest) := by simp
      rw [shape]
      have few : front.length ≠ 8 := by omega
      simp only [first, few, dite_false, Bool.false_eq_true, if_false, readChar, if_true, bind,
        Option.bind_some, second]
      have filled := filled_groups (front ++ List.replicate (8 - front.length - back.length) 0 ++ back)
        (by simp; omega)
      have same := Vector.toList_inj.mp (filled.trans same.symm)
      rw [same]
      rfl

theorem read_zone_sound (zone : UInt32) (cs rest : List Char) (read : readZone cs = (zone, rest)) :
    ∃ text, cs = text ++ rest ∧ ZoneText zone text := by
  unfold readZone at read
  split at read
  · rename_i n left found
    cases read
    obtain ⟨_, opens, taken⟩ := Option.bind_eq_some_iff.mp found
    obtain rfl := (read_char_iff '%' cs _).mp opens
    obtain ⟨digits, rfl, numeral, small, -⟩ := (read_number_iff 10 4294967296 n _ rest).mp taken
    have same : n.toUInt32.toNat = n := UInt32.toNat_ofNat_of_lt' small
    exact ⟨'%' :: digits, rfl, .some _ digits (same.symm ▸ numeral)⟩
  · cases read
    exact ⟨[], rfl, .none⟩

theorem read_zone_complete (zone : UInt32) (text rest : List Char) (written : ZoneText zone text) :
    readZone (text ++ ']' :: rest) = (zone, ']' :: rest) := by
  cases written with
  | none => rfl
  | some _ digits numeral =>
      have stops : Stops 10 (']' :: rest) := rfl
      have read := (read_number_iff 10 4294967296 zone.toNat _ _).mpr
        ⟨digits, rfl, numeral, zone.toNat_lt, stops⟩
      simp [readZone, readChar, read]

theorem zone_closes (zone : UInt32) (text rest : List Char) (written : ZoneText zone text) :
    Closes (text ++ ']' :: rest) := by
  cases written with
  | none => exact ⟨_, .inr rfl⟩
  | some => exact ⟨_, .inl rfl⟩

theorem read_host_sound (host : Host) (cs rest : List Char) (read : readHost cs = some (host, rest)) :
    ∃ text, cs = text ++ rest ∧ HostText host text := by
  unfold readHost at read
  split at read
  · rename_i inner
    obtain ⟨⟨groups, left⟩, taken, zone⟩ := Option.bind_eq_some_iff.mp read
    obtain ⟨text, rfl, written⟩ := read_v6_sound groups inner left taken
    obtain ⟨behind, same, zoned⟩ := read_zone_sound (readZone left).1 left (readZone left).2 rfl
    obtain ⟨_, closes, last⟩ := Option.bind_eq_some_iff.mp zone
    cases last
    have closed : (readZone left).2 = ']' :: rest := (read_char_iff ']' _ rest).mp closes
    rw [closed] at same
    refine ⟨'[' :: text ++ behind ++ [']'], ?_, .v6 groups _ text behind written zoned⟩
    rw [same]
    simp
  · obtain ⟨⟨octets, left⟩, taken, read⟩ := Option.bind_eq_some_iff.mp read
    cases read
    obtain ⟨text, same, written, -⟩ := (read_octets_iff octets cs rest).mp taken
    exact ⟨text, same, .v4 octets text written⟩

theorem octets_start (octets : Vector UInt8 4) (text : List Char) (written : OctetsText octets text) :
    ∃ d more, text = d :: more ∧ isDigit 10 d = true := by
  obtain ⟨o, _, _, _, a, b, c, d, first, _, _, _⟩ := written
  obtain ⟨head, more, rfl⟩ := List.exists_cons_of_ne_nil first.numeral.nonempty
  exact ⟨head, _, rfl, first.numeral.digit head List.mem_cons_self⟩

theorem read_host_complete (host : Host) (text rest : List Char) (written : HostText host text)
    (stops : Stops 10 rest) : readHost (text ++ rest) = some (host, rest) := by
  cases written with
  | v4 octets _ written =>
      have read := (read_octets_iff octets _ rest).mpr ⟨text, rfl, written, stops⟩
      obtain ⟨d, more, rfl, digit⟩ := octets_start octets text written
      have plain : d ≠ '[' := fun bracket => by simp [bracket, isDigit, Text.digit?] at digit
      unfold readHost
      split
      · rename_i same
        exact absurd (List.cons.inj same).1 plain
      · rw [read]
        rfl
  | v6 groups zone text behind written zoned =>
      have shape : '[' :: text ++ behind ++ [']'] ++ rest = '[' :: (text ++ (behind ++ ']' :: rest)) := by
        simp
      rw [shape, readHost, read_v6_complete groups text _ written (zone_closes zone behind rest zoned)]
      simp [read_zone_complete zone behind rest zoned, readChar]

theorem parse_address_iff (text : String) (address : Address) :
    parse? text = some address ↔ AddressText address text.toList := by
  unfold parse?
  constructor
  · intro read
    obtain ⟨⟨host, left⟩, taken, later⟩ := Option.bind_eq_some_iff.mp read
    obtain ⟨front, same, written⟩ := read_host_sound host _ left taken
    obtain ⟨⟨port, rest⟩, ported, ends⟩ := Option.bind_eq_some_iff.mp later
    obtain ⟨digits, opens, number⟩ := Option.bind_eq_some_iff.mp ported
    obtain ⟨⟨n, rest⟩, number, last⟩ := Option.bind_eq_some_iff.mp number
    cases last
    obtain ⟨digits, rfl, numeral, small, -⟩ := (read_number_iff 10 65536 n _ rest).mp number
    cases rest with
    | cons => cases ends
    | nil =>
        cases ends
        have number : n.toUInt16.toNat = n := UInt16.toNat_ofNat_of_lt' small
        rw [same, (read_char_iff ':' left _).mp opens, List.append_nil]
        exact .mk host _ front digits written (number.symm ▸ numeral)
  · generalize text.toList = cs
    rintro ⟨host, port, front, digits, written, numeral⟩
    have number := (read_number_iff 10 65536 port.toNat (digits ++ []) []).mpr
      ⟨digits, rfl, numeral, port.toNat_lt, rfl⟩
    rw [List.append_nil] at number
    rw [read_host_complete host front (':' :: digits) written rfl]
    simp [readPort, readChar, number]

example : AddressText (loopback 8080) "127.0.0.1:8080".toList :=
  (parse_address_iff _ _).mp (by decide +kernel)

end MarkdownServer.Address
