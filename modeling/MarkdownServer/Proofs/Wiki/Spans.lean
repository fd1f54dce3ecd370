import MarkdownServer.Proofs.Wiki.Rows
/- Code spans, read back from the page. Backslashes and braces of the code stand behind a backslash of
   their own, in pairs that are told apart from the left. So no brace of the code can end the span. -/
set_option autoImplicit false

namespace MarkdownServer.Wiki

def escapeEach (mark : Char) (text : List Char) : List Char :=
  text.flatMap fun c => if c = mark then ['\\', c] else [c]

def unescape : List Char → List Char
  | '\\' :: c :: rest => c :: unescape rest
  | c :: rest => c :: unescape rest
  | [] => []

-- One character after another is as good as all at once, if backslashes come first.
theorem escape_code_stepwise (code : List Char) :
    escapeEach '\x7d' (escapeEach '\x7b' (escapeEach '\\' code)) = escapeCode code := by
  unfold escapeEach escapeCode
  rw [List.flatMap_assoc, List.flatMap_assoc]
  refine List.flatMap_congr fun c _ => ?_
  by_cases marked : c = '\\' ∨ c = '\x7b' ∨ c = '\x7d'
  · obtain rfl | rfl | rfl := marked <;> decide
  · obtain ⟨backslash, opening, closing⟩ := by simpa only [not_or] using marked
    simp [escapeCodeChar, backslash, opening, closing]

section
variable (c : Char) (code : List Char)

theorem escape_code_pair (marked : c = '\\' ∨ c = '\x7b' ∨ c = '\x7d') :
    escapeCode (c :: code) = '\\' :: c :: escapeCode code := by
  simp [escapeCode, escapeCodeChar, marked]

theorem escape_code_plain (plain : ¬ (c = '\\' ∨ c = '\x7b' ∨ c = '\x7d')) :
    escapeCode (c :: code) = c :: escapeCode code := by
  simp [escapeCode, escapeCodeChar, plain]

end

theorem unescape_escape_code (code : List Char) : unescape (escapeCode code) = code := by
  induction code with
  | nil => rfl
  | cons c code ih =>
      by_cases marked : c = '\\' ∨ c = '\x7b' ∨ c = '\x7d'
      · rw [escape_code_pair c code marked, unescape, ih]
      · have other : c ≠ '\\' := fun backslash => marked (.inl backslash)
        rw [escape_code_plain c code marked, unescape, ih]
        exact fun _ _ backslash => absurd backslash other

theorem escape_code_settled (code : List Char) : ¬ Escaped (escapeCode code) := by
  induction code with
  | nil => decide
  | cons c code ih =>
      by_cases marked : c = '\\' ∨ c = '\x7b' ∨ c = '\x7d'
      · rwa [escape_code_pair c code marked, escaped_behind_escaped]
      · have other : c ≠ '\\' := fun backslash => marked (.inl backslash)
        rw [escape_code_plain c code marked]
        exact mt (escaped_behind_other [] (escapeCode code) c other).mp ih

theorem escape_code_braces (code more front back : List Char) (c : Char) (brace : isBrace c = true)
    (split : escapeCode code ++ more = front ++ c :: back)
    (within : front.length < (escapeCode code).length) : Escaped front := by
  have other : c ≠ '\\' := by obtain rfl | rfl := brace_cases c brace <;> decide
  induction code generalizing front with
  | nil => exact absurd within (Nat.not_lt_zero _)
  | cons d code ih =>
      by_cases marked : d = '\\' ∨ d = '\x7b' ∨ d = '\x7d'
      · rw [escape_code_pair d code marked] at split within
        match front with
        | [] =>
            obtain ⟨backslash, -⟩ := List.cons.inj split
            exact absurd backslash.symm other
        | [e] =>
            obtain ⟨rfl, -⟩ := List.cons.inj split
            decide
        | e :: f :: front =>
            simp only [List.cons_append, List.cons.injEq] at split
            obtain ⟨rfl, rfl, split⟩ := split
            refine (escaped_behind_escaped front d).mpr (ih front split ?_)
            simpa using within
      · rw [escape_code_plain d code marked] at split within
        cases front with
        | nil =>
            obtain ⟨rfl, -⟩ := List.cons.inj split
            exact absurd (.inr (brace_cases d brace)) marked
        | cons e front =>
            simp only [List.cons_append, List.cons.injEq] at split
            obtain ⟨rfl, split⟩ := split
            have plain : d ≠ '\\' := fun backslash => marked (.inl backslash)
            refine (escaped_behind_other [] front d plain).mpr (ih front split ?_)
            simpa using within

theorem escaped_in_span (text : List Char) : Escaped ('\x7b' :: '\x7b' :: text) ↔ Escaped text :=
  (escaped_behind_other [] _ '\x7b' (by decide)).trans (escaped_behind_other [] text '\x7b' (by decide))

theorem code_span_injective (code other : List Char) (same : codeSpan code = codeSpan other) :
    code = other := by
  have inner : escapeCode code = escapeCode other := by simpa [codeSpan] using same
  rw [← unescape_escape_code code, inner, unescape_escape_code]

/- A span can be taken apart again: its code has no brace that is not escaped, comes back by leaving out one
   backslash of each pair, and ends at the first closing brace that no backslash escapes. -/
structure SpanRead (code : List Char) : Prop where
  stepwise : escapeEach '\x7d' (escapeEach '\x7b' (escapeEach '\\' code)) = escapeCode code
  escaped : ∀ front c back, escapeCode code = front ++ c :: back → isBrace c = true → Escaped front
  decoded : unescape (escapeCode code) = code
  inside : ∀ front back, codeSpan code = front ++ '\x7d' :: back →
    front.length < ('\x7b' :: '\x7b' :: escapeCode code).length → Escaped front
  ended : codeSpan code = '\x7b' :: '\x7b' :: escapeCode code ++ ['\x7d', '\x7d'] ∧
    ¬ Escaped ('\x7b' :: '\x7b' :: escapeCode code)
  distinct : ∀ other, codeSpan other = codeSpan code → other = code

theorem code_spans_read (code : List Char) : SpanRead code where
  stepwise := escape_code_stepwise code
  escaped front c back split brace := by
    refine escape_code_braces code [] front back c brace (by rw [List.append_nil, split]) ?_
    rw [split, List.length_append, List.length_cons]
    omega
  decoded := unescape_escape_code code
  inside front back split within := by
    match front with
    | [] => cases split
    | [e] => cases split
    | e :: f :: front =>
        simp only [codeSpan, List.cons_append, List.cons.injEq] at split
        obtain ⟨rfl, rfl, split⟩ := split
        refine (escaped_in_span front).mpr (escape_code_braces code _ front back '\x7d' (by decide) split ?_)
        simpa using within
  ended := ⟨rfl, mt (escaped_in_span _).mp (escape_code_settled code)⟩
  distinct other same := code_span_injective other code same

example : codeSpan "a\\\x7d".toList = "\x7b\x7ba\\\\\\\x7d\x7d\x7d".toList := by decide

end MarkdownServer.Wiki
