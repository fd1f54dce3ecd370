import MarkdownServer.Proofs.Json.Literals
import MarkdownServer.Proofs.Json.Texts
import MarkdownServer.Proofs.Json.Trailing
/- White space, and the values that hold no others. The reader of these takes just their spellings. -/
set_option autoImplicit false

namespace MarkdownServer.Json

theorem skip_space_split (cs : List Char) : ∃ front, Blank front ∧ cs = front ++ skipSpace cs :=
  ⟨cs.takeWhile isSpace, fun c member => List.all_eq_true.mp List.all_takeWhile c member,
    List.takeWhile_append_dropWhile.symm⟩

theorem skip_space_solid (cs rest : List Char) (c : Char) (skipped : skipSpace cs = c :: rest) :
    isSpace c = false := by
  have solid := List.head?_dropWhile_not isSpace cs
  unfold skipSpace at skipped
  simpa [skipped] using solid

theorem skip_space_past (front rest : List Char) (blank : Blank front) (c : Char)
    (solid : isSpace c = false) : skipSpace (front ++ c :: rest) = c :: rest := by
  unfold skipSpace
  rw [List.dropWhile_append_of_pos blank, List.dropWhile_cons_of_neg (by simp [solid])]

theorem skip_space_cons (c : Char) (rest : List Char) (solid : isSpace c = false) :
    skipSpace (c :: rest) = c :: rest :=
  skip_space_past [] rest (List.forall_mem_nil _) c solid

theorem blank_ends (space rest : List Char) (blank : Blank space) (ends : Ends rest) :
    Ends (space ++ rest) := by
  cases space with
  | nil => exact ends
  | cons c space =>
      have own := blank c List.mem_cons_self
      simp [Ends, isEnd, own]

theorem read_word_sound (word cs rest : List Char) (read : readWord word cs = .ok rest) :
    cs = word ++ rest := by
  induction word generalizing cs with
  | nil =>
      cases read
      rfl
  | cons w word ih =>
      cases cs with
      | nil => cases read
      | cons c cs =>
          rw [readWord] at read
          split at read
          · rename_i same
            rw [ih cs read, same]
            rfl
          · cases read

theorem word_read (word rest : List Char) : readWord word (word ++ rest) = .ok rest := by
  induction word with
  | nil => rfl
  | cons w word ih =>
      rw [List.cons_append, readWord, if_pos rfl]
      exact ih

theorem map_ok {ε α β : Type} (result : Except ε α) (change : α → β) (b : β)
    (mapped : result.map change = .ok b) : ∃ a, result = .ok a ∧ change a = b := by
  cases result with
  | error fault => cases mapped
  | ok a =>
      cases mapped
      exact ⟨a, rfl, rfl⟩

theorem read_scalar_sound (c : Char) (cs rest : List Char) (draft : Draft)
    (read : readScalar (c :: cs) = (draft, some rest)) :
    ∃ v body, ScalarSpelled v body ∧ c :: cs = body ++ rest ∧ draft.value = .ok v := by
  rw [read_scalar_cons] at read
  replace read := of_except_read _ _ _ read
  have word (letters : List Char) (made : Draft)
      (read : (readWord letters cs).map (fun rest => (made, rest)) = .ok (draft, rest)) :
      made = draft ∧ cs = letters ++ rest := by
    obtain ⟨left, taken, same⟩ := map_ok _ _ _ read
    cases same
    exact ⟨rfl, read_word_sound letters cs _ taken⟩
  split at read
  · rename_i letter
    obtain ⟨rfl, rfl⟩ := word _ _ read
    exact ⟨.null, _, .null, by rw [letter]; rfl, rfl⟩
  split at read
  · rename_i letter
    obtain ⟨rfl, rfl⟩ := word _ _ read
    exact ⟨.boolean true, _, .yes, by rw [letter]; rfl, rfl⟩
  split at read
  · rename_i letter
    obtain ⟨rfl, rfl⟩ := word _ _ read
    exact ⟨.boolean false, _, .no, by rw [letter]; rfl, rfl⟩
  split at read
  · rename_i quote
    obtain ⟨⟨s, left⟩, taken, same⟩ := map_ok _ _ _ read
    cases same
    obtain ⟨inside, split, spelled⟩ := (quoted_read_iff cs _ s).mp taken
    exact ⟨.text s, _, .text s inside spelled, by simp [quote, split], rfl⟩
  split at read
  · obtain ⟨⟨n, left⟩, taken, same⟩ := map_ok _ _ _ read
    cases same
    obtain ⟨l, sound, split, value⟩ := number_sound (c :: cs) _ n taken
    exact ⟨.number n, _, .number l sound n value, split, rfl⟩
  · cases read

def isNumeric (c : Char) : Bool := c = '-' || c.isDigit

theorem numeric_other (c d : Char) (numeric : isNumeric c = true) (other : isNumeric d = false) :
    c ≠ d := by
  rintro rfl
  rw [numeric] at other
  cases other

theorem literal_start (l : Literal) (sound : l.Sound) :
    ∃ c rest, l.written = c :: rest ∧ isNumeric c = true := by
  obtain ⟨d, ds, whole, _⟩ := digits_not_sign l.whole sound.whole
  have digit : d.isDigit = true := sound.whole.2 d (by simp [whole])
  cases sign : l.negative with
  | true => exact ⟨'-', _, by simp [Literal.written, sign]; rfl, rfl⟩
  | false => exact ⟨d, _, by simp [Literal.written, sign, whole]; rfl, by simp [isNumeric, digit]⟩

structure Starts (c : Char) : Prop where
  solid : isSpace c = false
  bracket : c ≠ ']'
  brace : c ≠ '\x7d'

theorem scalar_start (v : Value) (body : List Char) (spelled : ScalarSpelled v body) :
    ∃ c rest, body = c :: rest ∧ Starts c ∧ c ≠ '[' ∧ c ≠ '\x7b' := by
  cases spelled with
  | null => exact ⟨'n', _, rfl, ⟨by decide, by decide, by decide⟩, by decide, by decide⟩
  | yes => exact ⟨'t', _, rfl, ⟨by decide, by decide, by decide⟩, by decide, by decide⟩
  | no => exact ⟨'f', _, rfl, ⟨by decide, by decide, by decide⟩, by decide, by decide⟩
  | text s inside => exact ⟨'"', _, rfl, ⟨by decide, by decide, by decide⟩, by decide, by decide⟩
  | number l sound =>
      obtain ⟨c, rest, written, numeric⟩ := literal_start l sound
      have other (d : Char) (plain : isNumeric d = false) := numeric_other c d numeric plain
      have solid : isSpace c = false := by
        simp [isSpace, other ' ' (by decide), other '\t' (by decide), other '\n' (by decide),
          other '\r' (by decide)]
      exact ⟨c, rest, written, ⟨solid, other _ (by decide), other _ (by decide)⟩, other _ (by decide),
        other _ (by decide)⟩

theorem scalar_read (v : Value) (body : List Char) (spelled : ScalarSpelled v body) (rest : List Char)
    (ends : Ends rest) :
    ∃ draft, readScalar (body ++ rest) = (draft, some rest) ∧ draft.value = .ok v := by
  cases spelled with
  | null => exact ⟨.null, by
      change readScalar ('n' :: ("ull".toList ++ rest)) = _
      rw [read_scalar_cons, if_pos rfl, word_read]
      rfl, rfl⟩
  | yes => exact ⟨.boolean true, by
      change readScalar ('t' :: ("rue".toList ++ rest)) = _
      rw [read_scalar_cons, if_neg (by decide), if_pos rfl, word_read]
      rfl, rfl⟩
  | no => exact ⟨.boolean false, by
      change readScalar ('f' :: ("alse".toList ++ rest)) = _
      rw [read_scalar_cons, if_neg (by decide), if_neg (by decide), if_pos rfl, word_read]
      rfl, rfl⟩
  | text s inside spelled =>
      refine ⟨.text s, ?_, rfl⟩
      have read := (quoted_read_iff (inside ++ '"' :: rest) rest s).mpr ⟨inside, rfl, spelled⟩
      simp only [List.cons_append, List.append_assoc, List.nil_append]
      rw [read_scalar_cons, if_neg (by decide), if_neg (by decide), if_neg (by decide), if_pos rfl, read]
      rfl
  | number l sound n value =>
      refine ⟨.number n, ?_, rfl⟩
      have read := number_complete l sound n value rest ends
      obtain ⟨c, tail, written, numeric⟩ := literal_start l sound
      have other (d : Char) (plain : isNumeric d = false) := numeric_other c d numeric plain
      rw [written, List.cons_append] at read ⊢
      rw [read_scalar_cons, if_neg (other _ (by decide)), if_neg (other _ (by decide)),
        if_neg (other _ (by decide)), if_neg (other _ (by decide)),
        if_pos (show (decide (c = '-') || c.isDigit) = true from numeric), read]
      rfl

end MarkdownServer.Json
