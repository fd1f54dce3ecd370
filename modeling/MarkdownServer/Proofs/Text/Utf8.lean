import MarkdownServer.Text.Utf8
/- Texts and their bytes. Decoding gives back what was encoded, and there is nothing else to decode: the
   bytes of a text are the only ones that stand for it. -/
set_option autoImplicit false

namespace MarkdownServer.Text.Utf8

theorem bytes_listed (bytes : ByteArray) (index : Nat) (done : List UInt8) :
    ByteArray.toList.loop bytes index done = done.reverse ++ bytes.data.toList.drop index := by
  fun_induction ByteArray.toList.loop bytes index done with
  | case1 index done more ih =>
      have within : index < bytes.data.toList.length := by simpa using more
      rw [ih, List.drop_eq_getElem_cons within]
      simp [ByteArray.get!, more]
  | case2 index done more =>
      rw [List.drop_eq_nil_of_le (by simpa using Nat.le_of_not_lt more)]
      simp

theorem encode_length (text : String) : (encode text).length = text.utf8ByteSize := by
  unfold encode ByteArray.toList
  rw [bytes_listed]
  simp

theorem encode_of_list (cs : List Char) :
    encode (String.ofList cs) = cs.flatMap String.utf8EncodeChar := by
  unfold encode ByteArray.toList
  rw [bytes_listed, String.toUTF8_eq_toByteArray, String.toByteArray_ofList, List.utf8Encode,
    List.toList_data_toByteArray]
  rfl

theorem encode_append (text more : String) : encode (text ++ more) = encode text ++ encode more := by
  rw [← String.ofList_toList (s := text), ← String.ofList_toList (s := more), ← String.ofList_append,
    encode_of_list, encode_of_list, encode_of_list, List.flatMap_append]

theorem continuation_iff (b : UInt8) :
    isContinuation b = true ↔ 0x80 ≤ b.toNat ∧ b.toNat ≤ 0xBF := by
  simp [isContinuation, UInt8.le_iff_toNat_le]

theorem may_follow_iff (a b : UInt8) :
    mayFollow a b = true ↔ 0x80 ≤ b.toNat ∧ b.toNat ≤ 0xBF ∧ (a.toNat = 0xE0 → 0xA0 ≤ b.toNat) ∧
      (a.toNat = 0xED → b.toNat ≤ 0x9F) ∧ (a.toNat = 0xF0 → 0x90 ≤ b.toNat) ∧
      (a.toNat = 0xF4 → b.toNat ≤ 0x8F) := by
  simp only [mayFollow, ← UInt8.toNat_inj, UInt8.reduceToNat]
  by_cases overlong : a.toNat = 0xE0
  · simp [overlong, UInt8.le_iff_toNat_le]
    omega
  by_cases surrogate : a.toNat = 0xED
  · simp [surrogate, UInt8.le_iff_toNat_le]
    omega
  by_cases long : a.toNat = 0xF0
  · simp [long, UInt8.le_iff_toNat_le]
    omega
  by_cases last : a.toNat = 0xF4
  · simp [last, UInt8.le_iff_toNat_le]
    omega
  · simp [overlong, surrogate, long, last, continuation_iff]

inductive Spells (n : Nat) : List UInt8 → Prop where
  | one (a : UInt8) (small : n < 0x80) (first : a.toNat = n) : Spells n [a]
  | two (a b : UInt8) (low : 0x80 ≤ n) (high : n < 0x800) (first : a.toNat = 0xC0 + n / 64)
      (second : b.toNat = 0x80 + n % 64) : Spells n [a, b]
  | three (a b c : UInt8) (low : 0x800 ≤ n) (high : n < 0x10000) (real : n < 0xD800 ∨ 0xDFFF < n)
      (first : a.toNat = 0xE0 + n / 4096) (second : b.toNat = 0x80 + n / 64 % 64)
      (third : c.toNat = 0x80 + n % 64) : Spells n [a, b, c]
  | four (a b c d : UInt8) (low : 0x10000 ≤ n) (high : n < 0x110000)
      (first : a.toNat = 0xF0 + n / 262144) (second : b.toNat = 0x80 + n / 4096 % 64)
      (third : c.toNat = 0x80 + n / 64 % 64) (fourth : d.toNat = 0x80 + n % 64) :
      Spells n [a, b, c, d]

theorem character_spelled (c : Char) : Spells c.toNat (String.utf8EncodeChar c) := by
  have valid : c.toNat < 0xD800 ∨ 0xDFFF < c.toNat ∧ c.toNat < 0x110000 := c.valid
  have same : c.val.toNat = c.toNat := rfl
  unfold String.utf8EncodeChar
  dsimp only
  rw [same]
  have byte (n : Nat) (small : n < 256) : (UInt8.ofNat n).toNat = n := by
    rw [UInt8.toNat_ofNat', Nat.mod_eq_of_lt small]
  split
  · exact .one _ (by omega) (byte _ (by omega))
  split
  · refine .two _ _ (by omega) (by omega) ?_ ?_
    · rw [byte _ (by omega)]; omega
    · rw [byte _ (by omega)]; omega
  split
  · refine .three _ _ _ (by omega) (by omega) (by omega) ?_ ?_ ?_
    · rw [byte _ (by omega)]; omega
    · rw [byte _ (by omega)]; omega
    · rw [byte _ (by omega)]; omega
  · refine .four _ _ _ _ (by omega) (by omega) ?_ ?_ ?_ ?_
    · rw [byte _ (by omega)]; omega
    · rw [byte _ (by omega)]; omega
    · rw [byte _ (by omega)]; omega
    · rw [byte _ (by omega)]; omega

theorem spelling_unique (n : Nat) (bytes others : List UInt8) (spells : Spells n bytes)
    (again : Spells n others) : bytes = others := by
  cases spells <;> cases again <;> first
    | omega
    | simp only [List.cons.injEq, and_true, ← UInt8.toNat_inj]
      omega

theorem spelling_real (n : Nat) (bytes : List UInt8) (spells : Spells n bytes) :
    (Char.ofNat n).toNat = n := by
  have valid : n.isValidChar := by
    cases spells <;> simp only [Nat.isValidChar] <;> omega
  have plain : Char.ofNat n = Char.ofNatAux n valid := dif_pos valid
  exact congrArg Char.toNat plain

theorem lead_read (a : UInt8) (low : 0xC2 ≤ a.toNat) (high : a.toNat ≤ 0xF4) :
    ¬ a < 0x80 ∧ (decide (a < 0xC2) || decide (0xF4 < a)) = false := by
  simp only [UInt8.lt_iff_toNat_lt, UInt8.reduceToNat, Bool.or_eq_false_iff, decide_eq_false_iff_not]
  omega

theorem read_spelled (index n : Nat) (done : List Char) (bytes rest : List UInt8)
    (spells : Spells n bytes) :
    decodeFrom index done (bytes ++ rest) =
      decodeFrom (index + bytes.length) (Char.ofNat n :: done) rest := by
  cases spells with
  | one a small first =>
      have ascii : a < 0x80 := UInt8.lt_iff_toNat_lt.mpr (by rw [first]; exact small)
      rw [List.singleton_append, decodeFrom.eq_def]
      dsimp only
      rw [if_pos ascii, first]
      rfl
  | two a b low high first second =>
      obtain ⟨wide, leads⟩ := lead_read a (by omega) (by omega)
      have follows : mayFollow a b = true := (may_follow_iff a b).mpr (by omega)
      have short : a < 0xE0 := by
        simp only [UInt8.lt_iff_toNat_lt, first, UInt8.reduceToNat]
        omega
      have number : 64 * (a.toNat % 32) + b.toNat % 64 = n := by omega
      rw [List.cons_append, List.singleton_append, decodeFrom.eq_def]
      simp only [wide, leads, follows, short, assemble, number, List.foldl_cons, List.foldl_nil,
        Bool.not_true, Bool.false_eq_true, if_true, if_false, List.length_cons, List.length_nil]
  | three a b c low high real first second third =>
      obtain ⟨wide, leads⟩ := lead_read a (by omega) (by omega)
      have follows : mayFollow a b = true := (may_follow_iff a b).mpr (by omega)
      have long : ¬ a < 0xE0 := by
        simp only [UInt8.lt_iff_toNat_lt, first, UInt8.reduceToNat]
        omega
      have continues : isContinuation c = true := (continuation_iff c).mpr (by omega)
      have short : a < 0xF0 := by
        simp only [UInt8.lt_iff_toNat_lt, first, UInt8.reduceToNat]
        omega
      have number : 64 * (64 * (a.toNat % 16) + b.toNat % 64) + c.toNat % 64 = n := by omega
      rw [List.cons_append, List.cons_append, List.singleton_append, decodeFrom.eq_def]
      simp only [wide, leads, follows, long, continues, short, assemble, number, List.foldl_cons,
        List.foldl_nil, Bool.not_true, Bool.false_eq_true, if_true, if_false, List.length_cons,
        List.length_nil]
  | four a b c d low high first second third fourth =>
      obtain ⟨wide, leads⟩ := lead_read a (by omega) (by omega)
      have follows : mayFollow a b = true := (may_follow_iff a b).mpr (by omega)
      have long : ¬ a < 0xE0 := by
        simp only [UInt8.lt_iff_toNat_lt, first, UInt8.reduceToNat]
        omega
      have continues : isContinuation c = true := (continuation_iff c).mpr (by omega)
      have longest : ¬ a < 0xF0 := by
        simp only [UInt8.lt_iff_toNat_lt, first, UInt8.reduceToNat]
        omega
      have ends : isContinuation d = true := (continuation_iff d).mpr (by omega)
      have number : 64 * (64 * (64 * (a.toNat % 8) + b.toNat % 64) + c.toNat % 64) + d.toNat % 64 = n := by
        omega
      rw [List.cons_append, List.cons_append, List.cons_append, List.singleton_append,
        decodeFrom.eq_def]
      simp only [wide, leads, follows, long, continues, longest, ends, assemble, number,
        List.foldl_cons, List.foldl_nil, Bool.not_true, Bool.false_eq_true, if_false, List.length_cons,
        List.length_nil]

theorem read_character (index : Nat) (done : List Char) (c : Char) (rest : List UInt8) :
    decodeFrom index done (String.utf8EncodeChar c ++ rest) =
      decodeFrom (index + (String.utf8EncodeChar c).length) (c :: done) rest := by
  rw [read_spelled index c.toNat done _ rest (character_spelled c), Char.ofNat_toNat]

theorem read_characters (index : Nat) (done cs : List Char) :
    decodeFrom index done (cs.flatMap String.utf8EncodeChar) = .ok (done.reverse ++ cs) := by
  induction cs generalizing index done with
  | nil => simp [decodeFrom]
  | cons c cs ih =>
      rw [List.flatMap_cons, read_character, ih]
      simp

theorem spells_character (n : Nat) (bytes : List UInt8) (spells : Spells n bytes) :
    String.utf8EncodeChar (Char.ofNat n) = bytes := by
  have own := character_spelled (Char.ofNat n)
  rw [spelling_real n bytes spells] at own
  exact spelling_unique n _ _ own spells

theorem decoded_spelled (index : Nat) (done cs : List Char) (bytes : List UInt8)
    (decoded : decodeFrom index done bytes = .ok cs) :
    ∃ more, cs = done.reverse ++ more ∧ bytes = more.flatMap String.utf8EncodeChar := by
  fun_induction decodeFrom index done bytes with
  | case1 index done =>
      cases decoded
      exact ⟨[], by simp, rfl⟩
  | case2 index done a rest ascii ih =>
      obtain ⟨more, rfl, rfl⟩ := ih decoded
      have spells : Spells a.toNat [a] := .one a (UInt8.lt_iff_toNat_lt.mp ascii) rfl
      exact ⟨Char.ofNat a.toNat :: more, by simp, by simp [spells_character _ _ spells]⟩
  | case6 index done a high lead b rest follows two ih =>
      obtain ⟨more, rfl, rfl⟩ := ih decoded
      simp only [UInt8.lt_iff_toNat_lt, UInt8.reduceToNat, Bool.or_eq_true, decide_eq_true_eq,
        Bool.not_eq_true', Bool.not_eq_false, may_follow_iff] at high lead follows two
      have spells : Spells (64 * (a.toNat % 32) + b.toNat % 64) [a, b] :=
        .two a b (by omega) (by omega) (by omega) (by omega)
      refine ⟨assemble (a.toNat % 32) [b] :: more, by simp, ?_⟩
      rw [List.flatMap_cons, assemble, List.foldl_cons, List.foldl_nil, spells_character _ _ spells]
      rfl
  | case9 index done a high lead b follows two c rest continues three ih =>
      obtain ⟨more, rfl, rfl⟩ := ih decoded
      simp only [UInt8.lt_iff_toNat_lt, UInt8.reduceToNat, Bool.or_eq_true, decide_eq_true_eq,
        Bool.not_eq_true', Bool.not_eq_false, may_follow_iff] at high lead follows two
      simp only [UInt8.lt_iff_toNat_lt, UInt8.reduceToNat, Bool.not_eq_true', Bool.not_eq_false,
        continuation_iff] at continues three
      have spells : Spells (64 * (64 * (a.toNat % 16) + b.toNat % 64) + c.toNat % 64) [a, b, c] :=
        .three a b c (by omega) (by omega) (by omega) (by omega) (by omega) (by omega)
      refine ⟨assemble (a.toNat % 16) [b, c] :: more, by simp, ?_⟩
      rw [List.flatMap_cons, assemble, List.foldl_cons, List.foldl_cons, List.foldl_nil,
        spells_character _ _ spells]
      rfl
  | case12 index done a high lead b follows two c continues three d rest ends ih =>
      obtain ⟨more, rfl, rfl⟩ := ih decoded
      simp only [UInt8.lt_iff_toNat_lt, UInt8.reduceToNat, Bool.or_eq_true, decide_eq_true_eq,
        Bool.not_eq_true', Bool.not_eq_false, may_follow_iff] at high lead follows two
      simp only [UInt8.lt_iff_toNat_lt, UInt8.reduceToNat, Bool.not_eq_true', Bool.not_eq_false,
        continuation_iff] at continues three ends
      have spells : Spells (64 * (64 * (64 * (a.toNat % 8) + b.toNat % 64) + c.toNat % 64) + d.toNat % 64)
          [a, b, c, d] :=
        .four a b c d (by omega) (by omega) (by omega) (by omega) (by omega) (by omega)
      refine ⟨assemble (a.toNat % 8) [b, c, d] :: more, by simp, ?_⟩
      rw [List.flatMap_cons, assemble, List.foldl_cons, List.foldl_cons, List.foldl_cons, List.foldl_nil,
        spells_character _ _ spells]
      rfl
  | _ => cases decoded

theorem decode_encode (text : String) : decode (encode text) = .ok text := by
  have read := read_characters 0 [] text.toList
  rw [← encode_of_list, String.ofList_toList] at read
  unfold decode
  rw [read]
  exact congrArg Except.ok String.ofList_toList

theorem decode_iff (bytes : List UInt8) (text : String) :
    decode bytes = .ok text ↔ bytes = encode text := by
  constructor
  · intro decoded
    unfold decode at decoded
    cases read : decodeFrom 0 [] bytes with
    | error fault =>
        rw [read] at decoded
        cases decoded
    | ok cs =>
        rw [read] at decoded
        cases decoded
        obtain ⟨more, rfl, spelled⟩ := decoded_spelled 0 [] cs bytes read
        rw [spelled, encode_of_list]
  · rintro rfl
    exact decode_encode text

-- The bytes of other characters are not taken for those of an ASCII character.
theorem ascii_byte (d c : Char) (ascii : d.toNat < 0x80)
    (member : UInt8.ofNat d.toNat ∈ String.utf8EncodeChar c) : c = d := by
  have spelled := character_spelled c
  have number : (UInt8.ofNat d.toNat).toNat = d.toNat := by
    rw [UInt8.toNat_ofNat', Nat.mod_eq_of_lt (by omega)]
  generalize String.utf8EncodeChar c = bytes at spelled member
  have same : c.toNat = d.toNat := by
    cases spelled <;>
      simp only [List.mem_cons, List.not_mem_nil, or_false, ← UInt8.toNat_inj, number] at member <;>
      omega
  rw [← Char.ofNat_toNat c, same, Char.ofNat_toNat]

end MarkdownServer.Text.Utf8
