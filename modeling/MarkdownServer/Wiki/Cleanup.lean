import MarkdownServer.Text.Blank
import MarkdownServer.Text.Digits
/- The passes over raw wiki markup: left-over double asterisks, runs of line ends, and putting code
   back in its place. Texts that have been gone over are kept newest first. -/
set_option autoImplicit false

namespace MarkdownServer.Wiki.Cleanup

open Text (isBlank)

/-- The rest of a bold text up to two asterisks right behind a character that is no blank, all on
    one line; `inner` is the text so far, newest first. -/
def boldTo (inner : List Char) : List Char → Option (List Char × List Char)
  | '*' :: '*' :: rest =>
      if inner.head?.any fun c => !isBlank c then some (inner, rest)
      else boldTo ('*' :: inner) ('*' :: rest)
  | c :: rest => if c = '\n' then none else boldTo (c :: inner) rest
  | [] => none

def bold? (text : List Char) : Option (List Char × List Char) :=
  match text with
  | '*' :: '*' :: c :: rest => if isBlank c then none else boldTo [c] rest
  | _ => none

theorem bold_to_shorter (inner text found rest : List Char)
    (h : boldTo inner text = some (found, rest)) : rest.length < text.length := by
  fun_induction boldTo inner text with
  | case1 inner rest' _ =>
      simp only [Option.some.injEq, Prod.mk.injEq] at h
      simp +arith [← h.2]
  | case2 inner rest' _ ih => have := ih h; simp only [List.length_cons] at *; omega
  | case3 inner rest' => simp at h
  | case4 inner c rest' _ _ ih => have := ih h; simp only [List.length_cons] at *; omega
  | case5 inner => simp at h

theorem bold_shorter (text found rest : List Char) (h : bold? text = some (found, rest)) :
    rest.length < text.length := by
  unfold bold? at h
  split at h
  · split at h
    · simp at h
    · have := bold_to_shorter _ _ _ _ h
      simp only [List.length_cons]
      omega
  · simp at h

def singleAsterisks (done : List Char) : List Char → List Char
  | [] => done.reverse
  | c :: text =>
      match found : bold? (c :: text) with
      | some (inner, rest) =>
          have : rest.length < text.length + 1 := bold_shorter _ _ _ found
          singleAsterisks ('*' :: (inner ++ '*' :: done)) rest
      | none => singleAsterisks (c :: done) text
termination_by text => text.length

def limitLineEnds (done : List Char) (count : Nat) : List Char → List Char
  | [] => done.reverse
  | c :: rest =>
      if c = '\n' then
        limitLineEnds (if count < 2 then c :: done else done) (count + 1) rest
      else limitLineEnds (c :: done) 0 rest

def placeholder? (text : List Char) : Option (Nat × Nat) :=
  let digits := text.takeWhile Char.isDigit
  if !digits.isEmpty && (text.drop digits.length).head? == some '\x00' then
    some (Text.ofDigits 10 digits, digits.length + 1)
  else none

def restore (kept : Array (List Char)) (done : List Char) : List Char → List Char
  | [] => done.reverse
  | c :: rest =>
      match (if c = '\x00' then placeholder? rest else none) with
      | some (index, length) =>
          restore kept ((kept.getD index []).reverse ++ done) (rest.drop length)
      | none => restore kept (c :: done) rest
termination_by text => text.length
decreasing_by all_goals simp +arith

def run (raw : List Char) (kept : Array (List Char)) : List Char :=
  Text.trimBlanks (restore kept [] (limitLineEnds [] 0 (singleAsterisks [] raw))) ++ ['\n']

end MarkdownServer.Wiki.Cleanup
