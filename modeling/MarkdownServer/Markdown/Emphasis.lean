import MarkdownServer.Text.Blank
import MarkdownServer.Text.Punctuation
import MarkdownServer.Markdown.Document
/- Emphasis: which runs of marks may open and close it, and which of them belong together. -/
set_option autoImplicit false

namespace MarkdownServer.Markdown

open Text (isBlank isPunctuation)

structure Run where
  mark : Char
  length : Nat
  opens : Bool
  closes : Bool
deriving DecidableEq, Repr

namespace Run

/-- Is a run of `mark` between two characters allowed to open emphasis? Asterisks and double tildes
    may do so inside a word, underscores and single tildes may not. -/
def mayOpen (mark : Char) (length : Nat) (before after : Option Char) : Bool :=
  match before, after with
  | _, none => false
  | none, some next => !isBlank next
  | some previous, some next =>
      !isBlank next &&
        ((mark == '*' && !isPunctuation next) || (mark == '~' && 1 < length) ||
          (mark == '~' && previous == '~' && !isPunctuation next) ||
          isBlank previous || isPunctuation previous)

def mayClose (mark : Char) (length : Nat) (before after : Option Char) : Bool :=
  match before, after with
  | none, _ => false
  | some previous, none => !isBlank previous
  | some previous, some next =>
      !isBlank previous &&
        (((mark == '*' || (mark == '~' && 1 < length)) && !isPunctuation previous) ||
          (mark == '~' && previous == '~') || isBlank next || isPunctuation next)

def classify (mark : Char) (length : Nat) (before after : Option Char) : Option Run :=
  let opens := mayOpen mark length before after
  let closes := mayClose mark length before after
  if (opens || closes) && (mark != '~' || length ≤ 2) then some ⟨mark, length, opens, closes⟩
  else none

end Run

inductive Piece where
  | inline (element : Inline)
  | run (run : Run)
  | bracket (number : Nat) (image : Bool)

namespace Emphasis

structure Opener where
  mark : Char
  count : Nat
  run : Run
  behind : List Inline

/-- Elements in front of the first open run, open runs innermost first, and a bound: as many of the
    outer openers are known not to match a tilde. -/
structure State where
  front : List Inline := []
  openers : List Opener := []
  settled : Nat := 0

def marks (mark : Char) (count : Nat) : Inline :=
  .text (String.ofList (List.replicate count mark))

namespace State

def put (s : State) (element : Inline) : State :=
  match s.openers with
  | [] => { s with front := element :: s.front }
  | top :: rest => { s with openers := { top with behind := element :: top.behind } :: rest }

def unopened (openers : List Opener) (older : List Inline) : List Inline :=
  openers.foldr (fun o elements => o.behind ++ marks o.mark o.count :: elements) older

def finish (s : State) : List Inline :=
  (unopened s.openers s.front).reverse

end State

/-- Can a closing run be matched by an opener? Tildes need runs of the same length. Where one of
    the two runs may both open and close, their lengths must not add up to a multiple of three
    unless both are multiples of three. -/
def matchedBy (closer : Run) (o : Opener) : Bool :=
  o.mark == closer.mark &&
    (if closer.mark == '~' then closer.length == o.run.length else true) &&
    ((!(closer.opens && closer.closes) && !(o.run.opens && o.run.closes)) ||
      (closer.length + o.run.length) % 3 != 0 || closer.length % 3 == 0)

def findOpener (closer : Run) (inner : List Opener) : List Opener →
    Option (List Opener × Opener × List Opener)
  | [] => none
  | o :: rest =>
      if matchedBy closer o then some (inner.reverse, o, rest) else findOpener closer (o :: inner) rest

def wrap (mark : Char) : Nat → List Inline → List Inline
  | 0, elements => elements
  | 1, elements => [.styled (if mark = '~' then .struck else .emphasis) elements]
  | n + 2, elements => wrap mark n [.styled (if mark = '~' then .struck else .strong) elements]

def close (closer : Run) (s : State) (count : Nat) : State × Nat :=
  if count = 0 then (s, 0)
  else
    let searched :=
      if closer.mark = '~' then s.openers.take (s.openers.length - s.settled) else s.openers
    match findOpener closer [] searched with
    | none =>
        (if closer.mark = '~' then { s with settled := s.openers.length } else s, count)
    | some (inner, o, _) =>
        let outer := s.openers.drop (inner.length + 1)
        let elements := (State.unopened inner o.behind).reverse
        let used := max 1 (min count o.count)
        let wrapped := wrap o.mark used elements
        let s := { s with openers := outer, settled := min s.settled outer.length }
        let s :=
          if o.count ≤ used then wrapped.foldl State.put s
          else
            { s with
              openers := { o with count := o.count - used, behind := wrapped.reverse } :: outer }
        close closer s (count - used)
termination_by count
decreasing_by omega

def step (s : State) : Piece → State
  | .inline element => s.put element
  | .bracket _ image => s.put (.text (if image then "![" else "["))
  | .run run =>
      let (s, left) := if run.closes then close run s run.length else (s, run.length)
      if left = 0 then s
      else if run.opens then { s with openers := ⟨run.mark, left, run, []⟩ :: s.openers }
      else s.put (marks run.mark left)

def resolve (pieces : List Piece) : List Inline :=
  (pieces.foldl step {}).finish

end Emphasis
end MarkdownServer.Markdown
