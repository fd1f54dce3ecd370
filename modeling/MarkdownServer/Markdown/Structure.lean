import MarkdownServer.Markdown.Definition
/- The block structure of a document, found line by line. Every step reads one line and tells how
   many of the lines below it belong to the same block. -/
set_option autoImplicit false

namespace MarkdownServer.Markdown

def dropReturn (text : List Char) : List Char :=
  match text.reverse with
  | c :: '\r' :: rest => if c.toNat < 0x80 then (c :: rest).reverse else text
  | _ => text

def nothingLeft (c : Cursor) (line : Line) (following : List Line) : Bool :=
  c.atEnd && line.ending == .absent && following.isEmpty

def verbatim (c : Cursor) (line : Line) (following : List Line) : Nat × List Char × Nat :=
  let (text, more) := Line.throughFeed c.rest line.ending following
  (c.owed, dropReturn text, more)

def padded (padding : Nat) (text : List Char) : List Char :=
  List.replicate padding ' ' ++ text

namespace Builder

structure CodeLine where
  text : List Char
  blank : Bool

def indentedLines (frames : List Frame) (done : List CodeLine) (count : Nat) :
    List Line → List CodeLine × Nat
  | [] => (done, count)
  | line :: following =>
      let (entered, c) := Frame.enterAll frames (.start line)
      let (taken, c) := c.spaces 4
      if entered < frames.length ∨ (taken < 4 ∧ !c.atEnd) ∨ nothingLeft c line following then
        (done, count)
      else
        let (padding, text, more) := verbatim c line following
        indentedLines frames (⟨padded padding text, blankRest c.rest⟩ :: done) (count + 1 + more)
          (following.drop more)
termination_by lines => lines.length
decreasing_by simp +arith

def indentedCode (b : Builder) (c : Cursor) (line : Line) (following : List Line) : Builder × Nat :=
  let (padding, text, more) := verbatim c line following
  let (lines, count) :=
    indentedLines b.frames [⟨padded padding text, false⟩] more (following.drop more)
  let kept := (lines.dropWhile CodeLine.blank).reverse.map CodeLine.text
  let b := { b with gap := lines.head?.any CodeLine.blank }
  (b.add (.code none (String.ofList kept.flatten)), count)

def fencedLines (frames : List Frame) (indent : Nat) (fence : Fence) (done : List (List Char))
    (count : Nat) : List Line → List (List Char) × Nat
  | [] => (done, count)
  | line :: following =>
      let (entered, c) := Frame.enterAll frames (.start line)
      if entered < frames.length then
        (done, if blankRest line.text then count + 1 else count)
      else
        let (_, c) := c.spaces indent
        let (taken, closing) := c.spaces (4 - indent)
        if taken < 4 - indent ∧
            (nothingLeft closing line following ∨ fence.closedBy closing.rest) then
          (done, count + 1)
        else
          let (padding, text, more) := verbatim c line following
          fencedLines frames indent fence (padded padding text :: done) (count + 1 + more)
            (following.drop more)
termination_by lines => lines.length
decreasing_by simp +arith

def fencedCode (b : Builder) (c : Cursor) (indent : Nat) (fence : Fence) (line : Line)
    (following : List Line) : Builder × Nat :=
  let (opening, more) := Line.throughFeed (c.rest.drop fence.length) line.ending following
  let info := unescape false (dropTrailing isAsciiBlank (opening.dropWhile isLineBlank))
  let (pieces, count) := fencedLines b.frames indent fence [] more (following.drop more)
  (b.add (.code (some (String.ofList info)) (String.ofList pieces.reverse.flatten)), count)

inductive HtmlEnd where
  | mark (characters : List Char)
  | blankLine

def htmlLines (frames : List Frame) (ending : HtmlEnd) (previous : List Char)
    (done : List HtmlLine) (count : Nat) : List Line → List HtmlLine × Nat
  | [] => (done, count)
  | line :: following =>
      let (entered, c) := Frame.enterAll frames (.start line)
      let ended : Bool :=
        match ending with
        | .mark characters => (RawHtml.lengthThrough characters previous).isSome
        | .blankLine => c.atEnd || blankRest c.rest
      if entered < frames.length || ended || nothingLeft c line following then (done, count)
      else
        let (padding, text, more) := verbatim c line following
        htmlLines frames ending text (⟨padding, String.ofList text⟩ :: done) (count + 1 + more)
          (following.drop more)
termination_by lines => lines.length
decreasing_by simp +arith

def htmlBlock (b : Builder) (c : Cursor) (indent : Nat) (ending : HtmlEnd) (line : Line)
    (following : List Line) : Builder × Nat :=
  let (_, text, more) := verbatim c line following
  let (lines, count) :=
    htmlLines b.frames ending text [⟨indent, String.ofList text⟩] more (following.drop more)
  (b.add (.html lines.reverse), count)

def headingText (text : List Char) : List Char :=
  let text := dropTrailing (fun c => c == '\n' || c == '\r' || c == ' ') text
  let body := dropTrailing (· == '#') text
  if body.isEmpty then []
  else
    let kept := dropTrailing (· == ' ') body
    if kept.length < body.length then kept else text

def heading (b : Builder) (c : Cursor) (level : Nat) (line : Line) (following : List Line) :
    Builder × Nat :=
  let behind := c.rest.drop level
  if behind.isEmpty then (b.add (.heading level { text := [] }), 0)
  else
    let (whole, more) :=
      Line.throughFeed (behind.dropWhile isLineBlank) line.ending following
    let text := headingText whole
    let first := text.takeWhile (· != '\r')
    (b.add (.heading level
      { text := first, before := some ' ', trailer := text.drop first.length }), more)

def tableRows (frames : List Frame) (width : Nat) (done : List (List Content)) (count : Nat) :
    List Line → List (List Content) × Nat
  | [] => (done.reverse, count)
  | line :: following =>
      let (entered, c) := Frame.enterAll frames (.start line)
      let text := c.skipSpaces.rest
      if entered < frames.length ∨ (Table.cells text).isEmpty ∨
          Here.interrupts ⟨text, line.ending, following⟩ true true then
        (done.reverse, count)
      else
        tableRows frames width (rowOf width text :: done) (count + 1) following
where
  rowOf (width : Nat) (text : List Char) : List Content :=
    Table.fitRow width { text := [], cell := true }
      ((Table.cells text).map fun cell => { text := cell, before := some ' ', cell := true })

structure Gathered where
  text : List Char
  size : Nat
  margins : List (Nat × List Char)
  ending : LineEnd

def Gathered.line (g : Gathered) (c : Cursor) (line : Line) : Gathered :=
  let start := g.size + g.ending.chars.length
  let marks := c.passed line
  { text := c.rest.reverse ++ (g.ending.chars.reverse ++ g.text)
    size := start + c.rest.length
    margins := if marks.isEmpty then g.margins else (start, marks) :: g.margins
    ending := line.ending }

def paragraphLines (frames : List Frame) (g : Gathered) (count : Nat) :
    List Line → Gathered × Option Nat × Nat
  | [] => (g, none, count)
  | line :: following =>
      let (entered, inner) := Frame.enterAll frames (.start line)
      let inside := entered == frames.length
      let (taken, c) := inner.spaces 4
      let underline := if taken < 4 ∧ inside then underlineLevel? c.rest else none
      match underline with
      | some level => (g, some level, count + 1)
      | none =>
          if (taken < 4 ∧ Here.interruptsParagraph frames ⟨c.rest, line.ending, following⟩ inside)
              ∨ c.skipSpaces.atEnd then (g, none, count)
          else paragraphLines frames (g.line inner line) (count + 1) following

def endsInBackslash (text : List Char) (line : Line) (following : List Line) : Bool :=
  runLength '\\' text.reverse % 2 == 1 && line.ending != .absent && !following.isEmpty

def paragraph (b : Builder) (c : Cursor) (before : Option Char) (task : Option Bool) (line : Line)
    (following : List Line) : Builder × Nat :=
  let frames := b.frames
  let columns :=
    if endsInBackslash c.rest line following then none
    else Here.tableBelow frames ⟨c.rest, line.ending, following⟩
  match columns with
  | some columns =>
      let width := columns.length
      let (rows, count) := tableRows frames width [] 1 (following.drop 1)
      (b.add (.table columns (tableRows.rowOf width c.rest) rows), count)
  | none =>
      let (g, level, count) :=
        paragraphLines frames ⟨c.rest.reverse, c.rest.length, [], line.ending⟩ 0 following
      let content : Content :=
        { text := (g.text.dropWhile isLineBlank).reverse
          margins := g.margins
          before
          task }
      let block : Draft :=
        match level with
        | some level => .heading level content
        | none => .paragraph content
      (b.add block, count)

/-- Reads definitions, and the paragraph that follows them. Definitions count as lines of that
    paragraph, so a line below them that has left their container may still belong to it. -/
def definitions (b : Builder) (c : Cursor) (before : Option Char) (line : Line)
    (following : List Line) : Builder × Nat :=
  match Definition.read b.frames c.rest following with
  | none => b.paragraph c before none line following
  | some (label, target, below) =>
      let b := { b with references := b.references.insertIfNew label target }
      let count := following.length - below.length
      match remaining : following.drop count with
      | [] => (b, count)
      | next :: below =>
          have : below.length < following.length := by
            have := congrArg List.length remaining
            simp only [List.length_drop, List.length_cons] at this
            omega
          let (entered, c) := Frame.enterAll b.frames (.start next)
          let (taken, inner) := c.spaces 4
          if taken < 4 ∧ Here.interruptsParagraph b.frames ⟨inner.rest, next.ending, below⟩
              (entered == b.frames.length) then
            (b, count)
          else
            let c := c.skipSpaces
            let (b, more) := definitions b c ((c.passed next).getLast?.or (some '\n')) next below
            (b, count + 1 + more)
termination_by following.length

inductive Opened where
  | nothing
  | task (done : Bool) (c : Cursor)
  | text (c : Cursor)

/-- Opens the containers whose marks stand at the cursor. A container takes at least one character,
    so `fuel` may be the length of the line. -/
def openContainers (ending : LineEnd) (fuel : Nat) (b : Builder) (c : Cursor) : Builder × Opened :=
  match fuel with
  | 0 => (b, .text c)
  | fuel + 1 =>
      let (outer, inner) := c.spaces 4
      if 4 ≤ outer then (b, .text c)
      else
        match ListMarker.scan outer inner with
        | some (marker, behind) =>
            let b := (b.beginList marker.mark marker.start).push (.item marker.indent [])
            if blankRest behind.rest then ({ b with bareItem := true }, .nothing)
            else
              match taskMarker? behind ending with
              | some (done, behind) => (b, .task done behind.skipSpaces)
              | none => openContainers ending fuel b behind
        | none =>
            match quoteMarker? inner with
            | some behind => openContainers ending fuel (b.endList.push (.quote [])) behind
            | none => (b, .text c)

def leaf (b : Builder) (c : Cursor) (before : Option Char) (line : Line) (following : List Line) :
    Builder × Nat :=
  let b := b.endList
  let (indent, c) := c.spaces 4
  if indent = 4 then b.indentedCode c line following
  else
    let html :=
      match c.rest with
      | '<' :: rest =>
          match RawHtml.endMark rest with
          | some mark => some (HtmlEnd.mark mark)
          | none =>
              if RawHtml.startsBlockElement rest || RawHtml.isLoneTag rest then some .blankLine
              else none
      | _ => none
    match html with
    | some ending => b.htmlBlock c indent ending line following
    | none =>
        if isRule c.rest then (b.add .rule, 0)
        else
          match headingLevel? c.rest with
          | some level => b.heading c level line following
          | none =>
              match fence? c.rest line.ending following with
              | some fence => b.fencedCode c indent fence line following
              | none => b.definitions c ((c.passed line).getLast?.or before) line following

/-- Reads a line. `before` is the character in front of it, if there is one. A task whose box stands
    alone on its line has only the box. -/
def readLine (b : Builder) (before : Option Char) (line : Line) (following : List Line) :
    Builder × Nat :=
  let (entered, c) := Frame.enterAll b.frames (.start line)
  let b := b.closeMany (b.spine.length - entered)
  match openContainers line.ending (line.text.length + 1) b c with
  | (b, .nothing) => (b, 0)
  | (b, .task done c) =>
      if blankRest c.rest then
        ({ b with bareItem := true }.add (.tight { text := [], task := some done }), 0)
      else b.paragraph c (some ' ') (some done) line following
  | (b, .text c) =>
      if blankRest c.rest then (b.blankLine, 0) else b.leaf c before line following

def readLines (b : Builder) (before : Option Char) : List Line → Builder
  | [] => b
  | line :: following =>
      let (b, more) := b.readLine before line following
      readLines b (some '\n') (following.drop more)
termination_by lines => lines.length
decreasing_by simp +arith

end Builder
end MarkdownServer.Markdown
