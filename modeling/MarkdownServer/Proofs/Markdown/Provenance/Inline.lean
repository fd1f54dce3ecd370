import MarkdownServer.Markdown.Scan
import MarkdownServer.Proofs.Markdown.Provenance.Basic
/- Inline elements hold no other kind of characters than the text they are read from. Every piece of a
   scan and every element of the emphasis between them keeps to the kind. -/
set_option autoImplicit false

namespace MarkdownServer.Markdown

/- The characters that an element shows, and the address it leads to, are of a kind, and so is one of the
   marks that a link is read from. The text of a link to a mail address is the address. -/
inductive Inline.Made (P : Char → Prop) : Inline → Prop where
  | text (content : String) (only : Only P content.toList) : Made P (.text content)
  | code (content : String) (only : Only P content.toList) : Made P (.code content)
  | html (content : String) (only : Only P content.toList) : Made P (.html content)
  | softBreak : Made P .softBreak
  | hardBreak : Made P .hardBreak
  | task (done : Bool) : Made P (.task done)
  | styled (style : Style) (children : List Inline) (inside : ∀ child ∈ children, Made P child) :
      Made P (.styled style children)
  | link (email : Bool) (target : Target) (children : List Inline) (url : Only P target.url.toList)
      (address : email = true → children = [.text target.url])
      (inside : ∀ child ∈ children, Made P child) (mark : P '<' ∨ P ']') :
      Made P (.link email target children)
  | image (target : Target) (children : List Inline) (url : Only P target.url.toList)
      (inside : ∀ child ∈ children, Made P child) (mark : P '<' ∨ P ']') :
      Made P (.image target children)

def MadeAll (P : Char → Prop) (elements : List Inline) : Prop := ∀ element ∈ elements, element.Made P

inductive Piece.Made (P : Char → Prop) : Piece → Prop where
  | inline (element : Inline) (made : element.Made P) : Made P (.inline element)
  | run (run : Run) (mark : P run.mark) : Made P (.run run)
  | bracket (number : Nat) (image : Bool) (opening : P '[') (bang : image = true → P '!') :
      Made P (.bracket number image)

structure Content.Made (P : Char → Prop) (content : Content) : Prop where
  text : Only P content.text
  margins : ∀ margin ∈ content.margins, Only P margin.2
  trailer : Only P content.trailer

def ReferencesMade (P : Char → Prop) (references : References) : Prop :=
  ∀ (label : String) (target : Target), references[label]? = some target → Only P target.url.toList

section
variable {P : Char → Prop}

theorem made_text (cs : List Char) (only : Only P cs) : (Inline.text (String.ofList cs)).Made P :=
  .text _ (by simpa using only)

theorem made_all_nil : MadeAll P [] := fun _ member => nomatch member

theorem made_all_cons (element : Inline) (elements : List Inline) :
    MadeAll P (element :: elements) ↔ element.Made P ∧ MadeAll P elements :=
  List.forall_mem_cons

theorem made_all_append (elements others : List Inline) :
    MadeAll P (elements ++ others) ↔ MadeAll P elements ∧ MadeAll P others :=
  List.forall_mem_append

theorem made_all_reverse (elements : List Inline) : MadeAll P elements.reverse ↔ MadeAll P elements := by
  simp [MadeAll]

theorem unescape_only (kind : Kind P) (cell : Bool) (text : List Char) (only : Only P text) :
    Only P (unescape cell text) := by
  fun_induction unescape cell text with
  | case1 => exact only_nil
  | case2 rest bar ih => simp_all
  | case3 rest bar ih => simp_all
  | case4 c rest _ punctuation ih => simp_all
  | case5 c rest _ punctuation ih => simp_all
  | case6 rest value length found ih =>
      obtain ⟨ampersand, rest'⟩ := (only_cons _ _).mp only
      rw [only_append]
      exact ⟨kind.reference ampersand rest value length found, ih (only_drop length rest rest')⟩
  | case7 rest missing ih => simp_all
  | case8 rest ih => simp_all
  | case9 c rest _ _ _ _ ih => simp_all

theorem uri_only (text uri : List Char) (only : Only P text) (found : Autolink.uri? text = some uri) :
    Only P uri := by
  unfold Autolink.uri? at found
  split at found
  · cases found
  dsimp only at found
  split at found
  · obtain ⟨_, same⟩ := Option.ite_none_right_eq_some.mp found
    cases same
    rw [only_append]
    exact ⟨only_take_while _ _ only, only_take_while _ _ (only_drop _ _ only)⟩
  · cases found

theorem email_only (text address : List Char) (only : Only P text)
    (found : Autolink.email? text = some address) : Only P address := by
  unfold Autolink.email? at found
  dsimp only at found
  split at found
  · rename_i c name rest start behind
    obtain ⟨length, _, found⟩ := Option.bind_eq_some_iff.mp found
    obtain ⟨_, same⟩ := Option.ite_none_right_eq_some.mp found
    have left := only_drop (text.takeWhile Autolink.isLocalChar).length text only
    rw [behind] at left
    obtain ⟨sign, rest'⟩ := (only_cons _ _).mp left
    cases same
    rw [only_append, only_cons]
    exact ⟨only_take_while _ _ only, sign, only_take _ _ rest'⟩
  · cases found

theorem angled_only (text rest url : List Char) (before : Only P text) (only : Only P rest)
    (found : Link.angled text rest = some url) : Only P url := by
  fun_induction Link.angled text rest <;> simp_all
  subst found
  simpa using before

theorem bare_only (text rest url : List Char) (depth : Nat) (before : Only P text) (only : Only P rest)
    (found : Link.bare text depth rest = some url) : Only P url := by
  fun_induction Link.bare text depth rest <;> simp_all
  all_goals
    subst found
    simpa using before

theorem destination_only (text url : List Char) (length : Nat) (only : Only P text)
    (found : Link.destination? text = some (url, length)) : Only P url := by
  unfold Link.destination? at found
  split at found
  · obtain ⟨url', read, same⟩ := Option.map_eq_some_iff.mp found
    cases same
    exact angled_only [] _ _ only_nil ((only_cons _ _).mp only).2 read
  · obtain ⟨url', read, same⟩ := Option.map_eq_some_iff.mp found
    cases same
    exact bare_only [] _ _ 0 only_nil only read

theorem in_place_only (kind : Kind P) (cell : Bool) (text : List Char) (target : Target) (length : Nat)
    (only : Only P text) (found : Link.inPlace? cell text = some (target, length)) :
    Only P target.url.toList := by
  unfold Link.inPlace? at found
  split at found
  · rename_i rest
    dsimp only at found
    obtain ⟨⟨url, taken⟩, read, found⟩ := Option.bind_eq_some_iff.mp found
    obtain ⟨_, same⟩ := Option.ite_none_right_eq_some.mp found
    have written := destination_only _ url taken (only_drop _ rest ((only_cons _ _).mp only).2) read
    cases same
    simpa using unescape_only kind cell url written
  · cases found

namespace Emphasis

structure State.Made (P : Char → Prop) (s : State) : Prop where
  front : MadeAll P s.front
  openers : ∀ o ∈ s.openers, P o.mark ∧ MadeAll P o.behind

theorem marks_made (mark : Char) (count : Nat) (kind : P mark) : (marks mark count).Made P :=
  made_text _ (only_replicate count mark kind)

theorem put_made (s : State) (element : Inline) (made : s.Made P) (new : element.Made P) :
    (s.put element).Made P := by
  unfold State.put
  split
  · exact ⟨(made_all_cons _ _).mpr ⟨new, made.front⟩, made.openers⟩
  · rename_i top rest openers
    have all := made.openers
    rw [openers] at all
    obtain ⟨⟨mark, behind⟩, rest⟩ := List.forall_mem_cons.mp all
    exact ⟨made.front, List.forall_mem_cons.mpr ⟨⟨mark, (made_all_cons _ _).mpr ⟨new, behind⟩⟩, rest⟩⟩

theorem unopened_made (openers : List Opener) (older : List Inline)
    (made : ∀ o ∈ openers, P o.mark ∧ MadeAll P o.behind) (before : MadeAll P older) :
    MadeAll P (State.unopened openers older) := by
  induction openers with
  | nil => exact before
  | cons o openers ih =>
      obtain ⟨⟨mark, behind⟩, rest⟩ := List.forall_mem_cons.mp made
      exact (made_all_append _ _).mpr
        ⟨behind, (made_all_cons _ _).mpr ⟨marks_made o.mark o.count mark, ih rest⟩⟩

theorem finish_made (s : State) (made : s.Made P) : MadeAll P s.finish :=
  (made_all_reverse _).mpr (unopened_made s.openers s.front made.openers made.front)

theorem wrap_made (mark : Char) (count : Nat) (elements : List Inline) (made : MadeAll P elements) :
    MadeAll P (wrap mark count elements) := by
  have styled (style : Style) (elements : List Inline) (made : MadeAll P elements) :
      MadeAll P [.styled style elements] :=
    (made_all_cons _ _).mpr ⟨.styled style elements made, made_all_nil⟩
  fun_induction wrap mark count elements with
  | case1 => exact made
  | case2 => exact styled _ _ made
  | case3 elements count ih => exact ih (styled _ _ made)

theorem find_opener_members (closer : Run) (inner openers : List Opener)
    (result : List Opener × Opener × List Opener) (found : findOpener closer inner openers = some result) :
    (∀ o ∈ result.1, o ∈ inner ∨ o ∈ openers) ∧ result.2.1 ∈ openers := by
  induction openers generalizing inner with
  | nil => cases found
  | cons o openers ih =>
      rw [findOpener] at found
      split at found
      · cases found
        exact ⟨fun o' member => .inl (List.mem_reverse.mp member), List.mem_cons_self⟩
      · obtain ⟨inside, opener⟩ := ih (o :: inner) found
        refine ⟨fun o' member => ?_, List.mem_cons_of_mem o opener⟩
        obtain before | behind := inside o' member
        · obtain rfl | before := List.mem_cons.mp before
          · exact .inr List.mem_cons_self
          · exact .inl before
        · exact .inr (List.mem_cons_of_mem o behind)

theorem put_all_made (elements : List Inline) (s : State) (made : s.Made P)
    (new : MadeAll P elements) : (elements.foldl State.put s).Made P := by
  induction elements generalizing s with
  | nil => exact made
  | cons element elements ih =>
      obtain ⟨first, rest⟩ := (made_all_cons _ _).mp new
      exact ih (s.put element) (put_made s element made first) rest

theorem close_made (closer : Run) (s : State) (count : Nat) (made : s.Made P) :
    (close closer s count).1.Made P := by
  fun_induction close closer s count with
  | case1 => exact made
  | case2 s count _ searched missing =>
      dsimp only
      split
      · exact ⟨made.front, made.openers⟩
      · exact made
  | case3 s count positive searched inner o rest found outer elements used wrapped s1 s2 ih =>
      have among : ∀ o ∈ searched, o ∈ s.openers := by
        intro o member
        dsimp only [searched] at member
        split at member
        · exact List.mem_of_mem_take member
        · exact member
      obtain ⟨inside, opener⟩ := find_opener_members closer [] searched _ found
      obtain ⟨mark, behind⟩ := made.openers o (among o opener)
      have innerMade : ∀ o ∈ inner, P o.mark ∧ MadeAll P o.behind := fun o member => by
        obtain absent | member := inside o member
        · cases absent
        · exact made.openers o (among o member)
      have elementsMade : MadeAll P elements :=
        (made_all_reverse _).mpr (unopened_made inner o.behind innerMade behind)
      have wrappedMade : MadeAll P wrapped := wrap_made o.mark used elements elementsMade
      have outerMade : ∀ o ∈ outer, P o.mark ∧ MadeAll P o.behind :=
        fun o member => made.openers o (List.mem_of_mem_drop member)
      have left : s1.Made P := ⟨made.front, outerMade⟩
      apply ih
      dsimp only [s2]
      split
      · exact put_all_made wrapped s1 left wrappedMade
      · exact ⟨made.front, List.forall_mem_cons.mpr ⟨⟨mark, (made_all_reverse _).mpr wrappedMade⟩, outerMade⟩⟩

theorem step_made (s : State) (piece : Piece) (made : s.Made P) (new : piece.Made P) :
    (step s piece).Made P := by
  cases new with
  | inline element inline => exact put_made s element made inline
  | bracket number image opening bang =>
      apply put_made s _ made
      cases image with
      | false => exact .text _ (by simpa using opening)
      | true => exact .text _ (by simpa using ⟨bang rfl, opening⟩)
  | run run mark =>
      have after (result : State × Nat) (closed : result.1.Made P) :
          (if result.2 = 0 then result.1
            else if run.opens then
              { result.1 with openers := ⟨run.mark, result.2, run, []⟩ :: result.1.openers }
            else result.1.put (marks run.mark result.2)).Made P := by
        split
        · exact closed
        split
        · exact ⟨closed.front, List.forall_mem_cons.mpr ⟨⟨mark, made_all_nil⟩, closed.openers⟩⟩
        · exact put_made result.1 _ closed (marks_made run.mark result.2 mark)
      apply after (if run.closes then close run s run.length else (s, run.length))
      split
      · exact close_made run s run.length made
      · exact made

theorem resolve_made (pieces : List Piece) (made : ∀ piece ∈ pieces, piece.Made P) :
    MadeAll P (resolve pieces) := by
  have run (s : State) (before : s.Made P) : (pieces.foldl step s).Made P := by
    induction pieces generalizing s with
    | nil => exact before
    | cons piece pieces ih =>
        obtain ⟨first, rest⟩ := List.forall_mem_cons.mp made
        exact ih rest (step s piece) (step_made s piece before first)
  exact finish_made _ (run _ ⟨made_all_nil, fun _ member => nomatch member⟩)

end Emphasis

namespace Scan

structure Made (P : Char → Prop) (s : Scan) : Prop where
  pieces : ∀ piece ∈ s.pieces, piece.Made P
  plain : Only P s.plain

theorem flush_made (s : Scan) (made : s.Made P) : s.flush.Made P := by
  unfold flush
  split
  · exact made
  · refine ⟨List.forall_mem_cons.mpr ⟨?_, made.pieces⟩, only_nil⟩
    exact .inline _ (made_text _ ((only_reverse _).mpr made.plain))

theorem put_made (s : Scan) (piece : Piece) (made : s.Made P) (new : piece.Made P) :
    (s.put piece).Made P :=
  ⟨List.forall_mem_cons.mpr ⟨new, (flush_made s made).pieces⟩, (flush_made s made).plain⟩

theorem write_made (s : Scan) (cs : List Char) (made : s.Made P) (new : Only P cs) :
    (s.write cs).Made P :=
  ⟨made.pieces, (only_append _ _).mpr ⟨(only_reverse cs).mpr new, made.plain⟩⟩

theorem open_bracket_made (s : Scan) (image : Bool) (start : Nat) (behind : List Char) (made : s.Made P)
    (opening : P '[') (bang : image = true → P '!') : (s.openBracket image start behind).Made P := by
  obtain ⟨pieces, plain⟩ := put_made s _ made (.bracket s.numbers image opening bang)
  exact ⟨pieces, plain⟩

theorem cut_at_made (number : Nat) (behind front : List Piece)
    (before : ∀ piece ∈ behind, piece.Made P) (made : ∀ piece ∈ front, piece.Made P) :
    (∀ piece ∈ (cutAt number behind front).1, piece.Made P) ∧
      ∀ piece ∈ (cutAt number behind front).2, piece.Made P := by
  induction front generalizing behind with
  | nil => exact ⟨before, made⟩
  | cons piece front ih =>
      obtain ⟨first, rest⟩ := List.forall_mem_cons.mp made
      have further := ih (piece :: behind) (List.forall_mem_cons.mpr ⟨first, before⟩) rest
      cases piece with
      | bracket n image =>
          rw [cutAt]
          split
          · exact ⟨before, rest⟩
          · exact further
      | inline element => exact further
      | run run => exact further

theorem enclose_made (s : Scan) (bracket : Bracket) (target : Target) (made : s.Made P)
    (url : Only P target.url.toList) (closing : P ']') : (s.enclose bracket target).Made P := by
  obtain ⟨pieces, plain⟩ := flush_made s made
  obtain ⟨behind, front⟩ :=
    cut_at_made bracket.number [] s.flush.pieces (fun _ member => nomatch member) pieces
  have children := Emphasis.resolve_made _ behind
  refine ⟨List.forall_mem_cons.mpr ⟨.inline _ ?_, front⟩, plain⟩
  split
  · exact .image target _ url children (.inr closing)
  · exact .link false target _ url (fun email => nomatch email) children (.inr closing)

theorem refer_made (s : Scan) (references : References) (bracket : Bracket) (label : Option String)
    (length : Nat) (made : s.Made P) (known : ReferencesMade P references) (closing : P ']') :
    (s.refer references bracket label length).1.Made P := by
  unfold refer
  split
  · rename_i target s' followed
    obtain ⟨label', _, followed⟩ := Option.bind_eq_some_iff.mp followed
    unfold follow at followed
    split at followed
    · cases followed
    · obtain ⟨target', found, same⟩ := Option.map_eq_some_iff.mp followed
      cases same
      exact enclose_made _ bracket target ⟨made.pieces, made.plain⟩ (known label' target found) closing
  · exact write_made s _ made (by simpa using closing)

theorem close_bracket_made (kind : Kind P) (s : Scan) (references : References) (cell : Bool)
    (position : Nat) (rest : List Char) (made : s.Made P) (known : ReferencesMade P references)
    (closing : P ']') (only : Only P rest) :
    (s.closeBracket references cell position rest).1.Made P := by
  have write (s : Scan) (made : s.Made P) : (s.write [']']).Made P :=
    write_made s _ made (by simpa using closing)
  unfold closeBracket
  split
  · exact write s made
  rename_i bracket others _
  dsimp only
  have left (brackets : List Bracket) (spent : List Nat) :
      ({ s with brackets, spent } : Scan).Made P := ⟨made.pieces, made.plain⟩
  split
  · exact write _ (left others s.spent)
  split
  · rename_i target length found
    exact enclose_made _ bracket target (left others s.spent)
      (in_place_only kind cell rest target length only found) closing
  split
  · exact refer_made _ references bracket _ 2 (left others s.spent) known closing
  split
  · exact refer_made _ references bracket _ _ (left others _) known closing
  · exact refer_made _ references bracket _ 0 (left others s.spent) known closing

theorem code_to_only (length run size : Nat) (text rest code : List Char) (before : Only P text)
    (only : Only P rest) (found : codeTo length run text rest = some (code, size)) : Only P code := by
  fun_induction codeTo length run text rest with
  | case1 text =>
      cases found
      exact (only_reverse _).mpr (only_drop length text before)
  | case2 => cases found
  | case3 run text rest ih => exact ih (by simp_all) (by simp_all) found
  | case4 text c rest other =>
      cases found
      exact (only_reverse _).mpr (only_drop length text before)
  | case5 run text c rest other different ih => exact ih (by simp_all) (by simp_all) found

theorem join_code_only (kind : Kind P) (cell : Bool) (code : List Char) (only : Only P code) :
    Only P (joinCode cell code) := by
  have space := kind.space
  fun_induction joinCode cell code <;> simp_all

theorem strip_code_only (code : List Char) (only : Only P code) : Only P (stripCode code) := by
  unfold stripCode
  split
  · exact only_subset _ _ (List.dropLast_subset _) (only_drop 1 code only)
  · exact only

end Scan

theorem source_only (content : Content) (position : Nat) (text : List Char) (only : Only P text)
    (margins : ∀ margin ∈ content.margins, Only P margin.2) :
    Only P (content.source position text) := by
  induction text generalizing position with
  | nil => exact only_nil
  | cons x rest ih =>
      obtain ⟨first, rest'⟩ := (only_cons _ _).mp only
      rw [Content.source, List.cons_append, only_cons, only_append]
      refine ⟨first, ?_, ih (position + 1) rest'⟩
      split
      · cases found : content.margins.lookup (position + 1) with
        | none => exact only_nil
        | some marks =>
            obtain ⟨before, after, split, _⟩ := List.lookup_eq_some_iff.mp found
            exact margins (position + 1, marks) (by simp [split])
      · exact only_nil

namespace Scan

theorem angle_made (content : Content) (position length : Nat) (rest : List Char) (element : Inline)
    (opening : P '<') (only : Only P rest) (margins : ∀ margin ∈ content.margins, Only P margin.2)
    (found : angle? content position rest = some (element, length)) : element.Made P := by
  have html (length : Nat) : Only P ('<' :: rest.take length) :=
    (only_cons _ _).mpr ⟨opening, only_take length rest only⟩
  unfold angle? at found
  split at found
  · rename_i uri address
    cases found
    have url := uri_only rest uri only address
    refine .link false _ _ (by simpa using url) (fun email => nomatch email) ?_ (.inl opening)
    exact (made_all_cons _ _).mpr ⟨made_text uri url, made_all_nil⟩
  split at found
  · rename_i address mail
    cases found
    have url := email_only rest address only mail
    refine .link true _ _ (by simpa using url) (fun _ => rfl) ?_ (.inl opening)
    exact (made_all_cons _ _).mpr ⟨made_text address url, made_all_nil⟩
  have passage (found : (RawHtml.passageLength rest).map (fun length =>
      (Inline.html (String.ofList (content.source position ('<' :: rest.take length))), length)) =
        some (element, length)) : element.Made P := by
    obtain ⟨length', _, same⟩ := Option.map_eq_some_iff.mp found
    cases same
    exact .html _ (by simpa using source_only content position _ (html length) margins)
  split at found
  · exact passage found
  · exact passage found
  · obtain ⟨length', _, same⟩ := Option.map_eq_some_iff.mp found
    cases same
    exact .html _ (by simpa using html length)

theorem line_break_made (s : Scan) (hard : Bool) (rest : List Char) (made : s.Made P) :
    (s.lineBreak hard rest).1.Made P := by
  apply put_made
  · refine ⟨made.pieces, ?_⟩
    dsimp only
    split
    · exact made.plain
    · exact only_drop_while isLineBlank s.plain made.plain
  · apply Piece.Made.inline
    split
    · exact .hardBreak
    · exact .softBreak

theorem step_made (kind : Kind P) (references : References) (content : Content) (s : Scan)
    (position : Nat) (previous : Option Char) (c : Char) (rest : List Char) (made : s.Made P)
    (known : ReferencesMade P references) (margins : ∀ margin ∈ content.margins, Only P margin.2)
    (first : P c) (only : Only P rest) :
    (step references content s position previous c rest).1.Made P := by
  have one (d : Char) (kind : P d) : (s.write [d]).Made P := write_made s _ made (by simpa using kind)
  unfold step
  split
  · exact line_break_made s false rest made
  · split
    · rename_i rest
      exact line_break_made s false rest made
    · exact line_break_made s false rest made
  · split
    · rename_i rest
      exact line_break_made s true rest made
    · rename_i rest
      exact line_break_made s true rest made
    · rename_i rest _
      exact line_break_made s true rest made
    · simp only [only_cons] at only
      split
      · exact one '|' only.2.1
      · exact one '\\' only.1
    · split
      · exact one _ ((only_cons _ _).mp only).1
      · exact one _ first
    · exact one _ first
  · dsimp only
    split
    · rename_i code length found
      have text := code_to_only _ 0 length [] _ code only_nil (only_drop _ rest only) found
      refine put_made s _ made (.inline _ (.code _ ?_))
      simpa using strip_code_only _ (join_code_only kind content.cell code text)
    · exact write_made s _ made ((only_cons _ _).mpr ⟨first, only_take _ rest only⟩)
  · split
    · exact one _ first
    · split
      · rename_i element length found
        exact put_made s _ made
          (.inline _ (angle_made content position length rest element first only margins found))
      · exact one _ first
  · split
    · rename_i characters length found
      exact write_made s _ made (kind.reference first rest characters length found)
    · exact one _ first
  · split
    · exact open_bracket_made s true _ _ made ((only_cons _ _).mp only).1 fun _ => first
    · exact one _ first
  · exact open_bracket_made s false _ _ made first fun image => absurd image (by decide)
  · exact close_bracket_made kind s references _ _ rest made known first only
  · split
    · dsimp only
      split
      · rename_i run classified
        refine put_made s _ made (.run run ?_)
        unfold Run.classify at classified
        obtain ⟨_, same⟩ := Option.ite_none_right_eq_some.mp classified
        cases same
        exact first
      · exact write_made s _ made ((only_cons _ _).mpr ⟨first, only_take _ rest only⟩)
    · exact one _ first

theorem run_made (kind : Kind P) (references : References) (content : Content) (s : Scan)
    (position : Nat) (previous : Option Char) (text : List Char) (made : s.Made P)
    (known : ReferencesMade P references) (margins : ∀ margin ∈ content.margins, Only P margin.2)
    (only : Only P text) : (run references content s position previous text).Made P := by
  fun_induction run references content s position previous text with
  | case1 s position previous => exact flush_made s made
  | case2 s position previous c rest s' more stepped ih =>
      obtain ⟨first, rest'⟩ := (only_cons _ _).mp only
      have after :=
        step_made kind references content s position previous c rest made known margins first rest'
      rw [stepped] at after
      exact ih after (only_drop more rest rest')

end Scan

theorem inlines_made (kind : Kind P) (references : References) (content : Content) (budget : Nat)
    (known : ReferencesMade P references) (made : content.Made P) :
    MadeAll P (content.inlines references budget).1 := by
  have scanned := Scan.run_made kind references content { budget } 0 content.before content.text
    ⟨fun _ member => (nomatch member), only_nil⟩ known made.margins made.text
  have elements := Emphasis.resolve_made
    (Scan.run references content { budget } 0 content.before content.text).pieces.reverse
    (fun piece member => scanned.pieces piece (List.mem_reverse.mp member))
  have whole : MadeAll P
      (if content.trailer.isEmpty then
        Emphasis.resolve
          (Scan.run references content { budget } 0 content.before content.text).pieces.reverse
      else
        Emphasis.resolve
            (Scan.run references content { budget } 0 content.before content.text).pieces.reverse ++
          [.text (String.ofList content.trailer)]) := by
    split
    · exact elements
    · refine (made_all_append _ _).mpr ⟨elements, ?_⟩
      exact (made_all_cons _ _).mpr ⟨made_text _ made.trailer, made_all_nil⟩
  unfold Content.inlines
  dsimp only
  cases content.task with
  | some done => exact (made_all_cons _ _).mpr ⟨.task done, whole⟩
  | none => exact whole

end
end MarkdownServer.Markdown
