import MarkdownServer.Proofs.Wiki.Braces
import MarkdownServer.Proofs.Wiki.Siblings
/- Rows of tables, read back from the raw markup. Bars of a text are not escaped, so a row comes apart
   into its cells only where each bar of their text stands behind a backslash of the text. -/
set_option autoImplicit false

namespace MarkdownServer.Wiki

open Markdown (Block Document Event Inline runLength)

def bar (inHead : Bool) : List Char := if inHead then ['|', '|'] else ['|']

-- What the next character of a row is: text, text behind a backslash, or the rest of a bar.
inductive Reading where
  | text
  | escaped
  | bar
deriving DecidableEq

def rowPieces (inHead : Bool) (state : Reading) (piece : List Char) : List Char → List (List Char)
  | [] => [piece.reverse]
  | c :: rest =>
    match state with
    | .escaped => rowPieces inHead .text (c :: piece) rest
    | .bar => rowPieces inHead .text piece rest
    | .text =>
      if c = '\\' then rowPieces inHead .escaped (c :: piece) rest
      else if (bar inHead).isPrefixOf (c :: rest) then
        piece.reverse :: rowPieces inHead (if inHead then .bar else .text) [] rest
      else rowPieces inHead .text (c :: piece) rest

def trimSpaces (text : List Char) : List Char :=
  Markdown.dropTrailing (· = ' ') (text.dropWhile (· = ' '))

def rowCells (inHead : Bool) (line : List Char) : List (List Char) :=
  ((rowPieces inHead .text [] line).drop 1).dropLast.map trimSpaces

def Barless (inHead : Bool) (text : List Char) : Prop :=
  ∀ front back, text = front ++ (bar inHead ++ back) → Escaped front

theorem escaped_behind_other (before front : List Char) (c : Char) (other : c ≠ '\\') :
    Escaped (before ++ c :: front) ↔ Escaped front := by
  unfold Escaped
  rw [List.reverse_append, List.reverse_cons, List.append_assoc, List.singleton_append,
    run_length_to _ _ _ _ other]

theorem run_length_pair (text : List Char) (c : Char) :
    runLength c (text ++ [c, c]) % 2 = runLength c text % 2 := by
  induction text with
  | nil => simp [runLength]
  | cons d text ih =>
      unfold runLength at ih ⊢
      by_cases same : (d == c) = true
      · simp only [List.cons_append, List.takeWhile_cons, same, if_true, List.length_cons]
        omega
      · simp [same]

theorem escaped_behind_escaped (front : List Char) (c : Char) :
    Escaped ('\\' :: c :: front) ↔ Escaped front := by
  by_cases backslash : c = '\\'
  · subst backslash
    unfold Escaped
    rw [List.reverse_cons, List.reverse_cons, List.append_assoc, List.singleton_append, run_length_pair]
  · exact escaped_behind_other ['\\'] front c backslash

def Reading.before : Reading → List Char
  | .escaped => ['\\']
  | _ => []

theorem splits_cons (text part : List Char) (c : Char) (Q : List Char → Prop) :
    (∀ front back, c :: text = front ++ (part ++ back) → Q front) ↔
      (part <+: c :: text → Q []) ∧ ∀ front back, text = front ++ (part ++ back) → Q (c :: front) := by
  constructor
  · intro every
    refine ⟨?_, fun front back same => every (c :: front) back (by rw [same, List.cons_append])⟩
    rintro ⟨back, same⟩
    exact every [] back same.symm
  · rintro ⟨first, later⟩ front back same
    cases front with
    | nil => exact first ⟨back, same.symm⟩
    | cons d front =>
        obtain ⟨rfl, rest⟩ := List.cons.inj same
        exact later front back rest

theorem bar_some (inHead : Bool) : bar inHead ≠ [] := by
  cases inHead <;> exact List.cons_ne_nil _ _

theorem bar_prefix_other (inHead : Bool) (c : Char) (rest : List Char) (other : c ≠ '|') :
    (bar inHead).isPrefixOf (c :: rest) = false := by
  cases inHead <;> simp [bar, List.isPrefixOf, other.symm]

theorem bar_prefix_same (inHead : Bool) (c : Char) (text more : List Char)
    (same : text.head? = some '|' ↔ more.head? = some '|') :
    (bar inHead).isPrefixOf (c :: text) = (bar inHead).isPrefixOf (c :: more) := by
  cases inHead with
  | false => simp [bar, List.isPrefixOf]
  | true =>
      have second (rest : List Char) : ['|'].isPrefixOf rest = (rest.head? == some '|') := by
        cases rest with
        | nil => rfl
        | cons d rest => simp [List.isPrefixOf, eq_comm]
      simp only [bar, if_true, List.isPrefixOf, second]
      rw [Bool.eq_iff_iff]
      simp [same]

theorem escape_head_bar (text : List Char) :
    (escapeText text).head? = some '|' ↔ text.head? = some '|' := by
  cases text with
  | nil => rfl
  | cons c text =>
      by_cases brace : c = '\x7b' ∨ c = '\x7d'
      · have other : c ≠ '|' := by obtain rfl | rfl := brace <;> decide
        simp [escapeText, escapeTextChar, brace, other]
      · simp [escapeText, escapeTextChar, brace]

theorem pieces_some (inHead : Bool) (state : Reading) (piece text : List Char) :
    1 ≤ (rowPieces inHead state piece text).length := by
  induction text generalizing state piece with
  | nil => exact Nat.le_refl 1
  | cons c text ih =>
      cases state with
      | escaped => exact ih _ _
      | bar => exact ih _ _
      | text =>
          rw [rowPieces]
          split
          · exact ih _ _
          split
          · exact Nat.le_add_left 1 _
          · exact ih _ _

theorem pieces_single (inHead : Bool) (state : Reading) (piece text : List Char) (inside : state ≠ .bar)
    (single : (rowPieces inHead state piece text).length = 1) :
    rowPieces inHead state piece text = [piece.reverse ++ text] := by
  induction text generalizing state piece with
  | nil => simp [rowPieces]
  | cons c text ih =>
      have next (state : Reading) (inside : state ≠ .bar)
          (single : (rowPieces inHead state (c :: piece) text).length = 1) :
          rowPieces inHead state (c :: piece) text = [piece.reverse ++ c :: text] := by
        rw [ih state (c :: piece) inside single, List.reverse_cons, List.append_assoc, List.singleton_append]
      cases state with
      | escaped => exact next .text nofun single
      | bar => exact absurd rfl inside
      | text =>
          rw [rowPieces] at single ⊢
          split
          · rename_i backslash
            rw [if_pos backslash] at single
            exact next .escaped nofun single
          · rename_i other
            rw [if_neg other] at single
            split
            · rename_i ended
              rw [if_pos ended, List.length_cons] at single
              have more := pieces_some inHead (if inHead then .bar else .text) [] text
              omega
            · rename_i goes
              rw [if_neg goes] at single
              exact next .text nofun single

theorem pieces_single_iff (inHead : Bool) (state : Reading) (piece text : List Char)
    (inside : state ≠ .bar) :
    (rowPieces inHead state piece text).length = 1 ↔
      ∀ front back, text = front ++ (bar inHead ++ back) → Escaped (state.before ++ front) := by
  induction text generalizing state piece with
  | nil =>
      have short (front back : List Char) : [] ≠ front ++ (bar inHead ++ back) := by
        simp [bar_some inHead]
      simp only [short, false_implies, implies_true, iff_true]
      rfl
  | cons c text ih =>
      rw [splits_cons]
      cases state with
      | escaped =>
          have first : Escaped (Reading.escaped.before ++ []) := by decide
          have shifted (front : List Char) : Escaped (Reading.escaped.before ++ c :: front) ↔ Escaped front :=
            escaped_behind_escaped front c
          rw [rowPieces, ih .text _ nofun]
          simp only [first, implies_true, true_and, shifted]
          rfl
      | bar => exact absurd rfl inside
      | text =>
          rw [rowPieces]
          by_cases backslash : c = '\\'
          · subst backslash
            have free : ¬ bar inHead <+: '\\' :: text := by
              rw [← List.isPrefixOf_iff_prefix, bar_prefix_other inHead '\\' text (by decide)]
              exact Bool.false_ne_true
            rw [if_pos rfl, ih .escaped _ nofun]
            simp only [free, false_implies, true_and]
            rfl
          · have shifted (front : List Char) : Escaped (c :: front) ↔ Escaped front :=
              escaped_behind_other [] front c backslash
            rw [if_neg backslash]
            by_cases ended : bar inHead <+: c :: text
            · have unescaped : ¬ Escaped [] := by decide
              have more := pieces_some inHead (if inHead then .bar else .text) [] text
              rw [if_pos (List.isPrefixOf_iff_prefix.mpr ended), List.length_cons]
              constructor
              · intro single
                omega
              · rintro ⟨first, -⟩
                exact absurd (first ended) unescaped
            · rw [if_neg (mt List.isPrefixOf_iff_prefix.mp ended), ih .text _ nofun]
              simp only [ended, false_implies, true_and, Reading.before, List.nil_append, shifted]

-- The backslash in front of a brace is taken with it, or behind another one.
theorem escape_pieces (inHead : Bool) (state : Reading) (piece other text : List Char) :
    (rowPieces inHead state piece (escapeText text)).length = (rowPieces inHead state other text).length := by
  induction text generalizing state piece other with
  | nil => rfl
  | cons c text ih =>
      by_cases brace : c = '\x7b' ∨ c = '\x7d'
      · have plain : c ≠ '\\' ∧ c ≠ '|' := by obtain rfl | rfl := brace <;> decide
        have whole : escapeText (c :: text) = '\\' :: c :: escapeText text := by
          simp [escape_text_cons, escapeTextChar, brace]
        have through (piece rest : List Char) :
            rowPieces inHead .text piece (c :: rest) = rowPieces inHead .text (c :: piece) rest := by
          rw [rowPieces, if_neg plain.1, bar_prefix_other inHead c _ plain.2, if_neg Bool.false_ne_true]
        rw [whole]
        cases state with
        | escaped => rw [rowPieces, through, rowPieces, ih]
        | bar => rw [rowPieces, through, rowPieces, ih]
        | text =>
            rw [rowPieces, if_pos rfl, rowPieces, through]
            exact ih _ _ _
      · have whole : escapeText (c :: text) = c :: escapeText text := by
          simp [escapeText, escapeTextChar, brace]
        rw [whole]
        cases state with
        | escaped => exact ih _ _ _
        | bar => exact ih _ _ _
        | text =>
            rw [rowPieces, rowPieces, bar_prefix_same inHead c _ _ (escape_head_bar text)]
            split
            · exact ih _ _ _
            split
            · exact congrArg Nat.succ (ih _ _ _)
            · exact ih _ _ _

theorem barless_iff (inHead : Bool) (text : List Char) :
    Barless inHead text ↔ (rowPieces inHead .text [] (escapeText text)).length = 1 := by
  rw [escape_pieces inHead .text [] [], pieces_single_iff inHead .text [] text nofun]
  rfl

theorem pieces_cell (inHead : Bool) (state : Reading) (piece text : List Char)
    (within : state = .bar → text.head? = some '|') :
    ∃ front last, rowPieces inHead state piece text = front ++ [last] ∧
      ∀ rest, rowPieces inHead state piece (text ++ ' ' :: (bar inHead ++ rest)) =
        front ++ (last ++ [' ']) :: rowPieces inHead .text [] rest := by
  have closed (piece rest : List Char) : rowPieces inHead .text piece (bar inHead ++ rest) =
      piece.reverse :: rowPieces inHead .text [] rest := by
    cases inHead <;> simp [rowPieces, bar, List.isPrefixOf]
  induction text generalizing state piece with
  | nil =>
      have spaced (more : List Char) : rowPieces inHead state piece (' ' :: more) =
          rowPieces inHead .text (' ' :: piece) more := by
        cases state with
        | escaped => rfl
        | bar => cases within rfl
        | text =>
            rw [rowPieces, if_neg (by decide), bar_prefix_other inHead ' ' more (by decide),
              if_neg Bool.false_ne_true]
      exact ⟨[], piece.reverse, rfl, fun rest => by simp [spaced, closed]⟩
  | cons c text ih =>
      cases state with
      | escaped => exact ih .text _ nofun
      | bar => exact ih .text _ nofun
      | text =>
          have same (rest : List Char) : (bar inHead).isPrefixOf (c :: (text ++ ' ' :: rest)) =
              (bar inHead).isPrefixOf (c :: text) := by
            apply bar_prefix_same
            cases text <;> simp
          simp only [List.cons_append, rowPieces, same]
          split
          · exact ih .escaped _ nofun
          split
          · rename_i ended
            have further : (if inHead then Reading.bar else .text) = .bar → text.head? = some '|' := by
              cases inHead with
              | false => exact nofun
              | true =>
                  intro _
                  cases text <;> simp [bar, List.isPrefixOf] at ended ⊢
                  exact ended.2.symm
            obtain ⟨front, last, split, behind⟩ := ih _ [] further
            exact ⟨piece.reverse :: front, last, by rw [split]; rfl, fun rest => by rw [behind]; rfl⟩
          · exact ih .text _ nofun

def cellPieces (inHead : Bool) (text : List Char) : List (List Char) :=
  (rowPieces inHead .text [] (' ' :: text ++ ' ' :: bar inHead)).dropLast

theorem cell_pieces_read (inHead : Bool) (text : List Char) :
    ∃ front last, rowPieces inHead .text [] (' ' :: text) = front ++ [last] ∧
      cellPieces inHead text = front ++ [last ++ [' ']] ∧
      ∀ rest, rowPieces inHead .text [] (' ' :: text ++ ' ' :: (bar inHead ++ rest)) =
        cellPieces inHead text ++ rowPieces inHead .text [] rest := by
  obtain ⟨front, last, split, behind⟩ := pieces_cell inHead .text [] (' ' :: text) nofun
  have own : cellPieces inHead text = front ++ [last ++ [' ']] := by
    have ended := behind []
    rw [List.append_nil] at ended
    rw [cellPieces, ended]
    simp [rowPieces]
  exact ⟨front, last, split, own, fun rest => by rw [behind, own]; simp⟩

theorem row_pieces_cells (inHead : Bool) (texts : List (List Char)) :
    rowPieces inHead .text [] (texts.flatMap fun text => ' ' :: text ++ ' ' :: bar inHead) =
      texts.flatMap (cellPieces inHead) ++ [[]] := by
  induction texts with
  | nil => rfl
  | cons text texts ih =>
      obtain ⟨_, _, _, _, behind⟩ := cell_pieces_read inHead text
      rw [List.flatMap_cons, List.flatMap_cons, List.append_assoc, List.append_assoc, ← ih, ← behind]
      simp

theorem barless_behind_space (inHead : Bool) (text : List Char) :
    Barless inHead (' ' :: text) ↔ Barless inHead text := by
  have free : ¬ bar inHead <+: ' ' :: text := by
    rw [← List.isPrefixOf_iff_prefix, bar_prefix_other inHead ' ' text (by decide)]
    exact Bool.false_ne_true
  have shifted (front : List Char) : Escaped (' ' :: front) ↔ Escaped front :=
    escaped_behind_other [] front ' ' (by decide)
  unfold Barless
  rw [splits_cons]
  simp only [free, false_implies, true_and, shifted]

theorem cell_pieces_barless (inHead : Bool) (text : List Char) :
    1 ≤ (cellPieces inHead (escapeText text)).length ∧
      ((cellPieces inHead (escapeText text)).length = 1 ↔ Barless inHead text) ∧
      (Barless inHead text → cellPieces inHead (escapeText text) = [' ' :: escapeText text ++ [' ']]) := by
  obtain ⟨front, last, split, own, -⟩ := cell_pieces_read inHead (escapeText text)
  have spaced : ' ' :: escapeText text = escapeText (' ' :: text) := by simp [escapeText, escapeTextChar]
  have single : Barless inHead text ↔ (front ++ [last]).length = 1 := by
    rw [← split, spaced, ← barless_iff, barless_behind_space]
  rw [own, single]
  refine ⟨by simp, by simp, fun one => ?_⟩
  rw [← split] at one
  have whole := pieces_single inHead .text [] _ (fun same => by cases same) one
  rw [split] at whole
  cases front with
  | nil =>
      cases whole
      simp
  | cons piece front => simp at whole

theorem flat_map_single {α β : Type} (f : α → List β) (xs : List α) (some : ∀ x ∈ xs, 1 ≤ (f x).length)
    (count : (xs.flatMap f).length ≤ xs.length) : ∀ x ∈ xs, (f x).length = 1 := by
  have bound (ys : List α) (some : ∀ y ∈ ys, 1 ≤ (f y).length) : ys.length ≤ (ys.flatMap f).length := by
    induction ys with
    | nil => exact Nat.le_refl 0
    | cons y ys ih =>
        obtain ⟨first, others⟩ := List.forall_mem_cons.mp some
        have rest := ih others
        rw [List.flatMap_cons, List.length_append, List.length_cons]
        omega
  induction xs with
  | nil => exact List.forall_mem_nil _
  | cons x xs ih =>
      obtain ⟨first, others⟩ := List.forall_mem_cons.mp some
      have rest := bound xs others
      rw [List.flatMap_cons, List.length_append, List.length_cons] at count
      exact List.forall_mem_cons.mpr ⟨by omega, ih others (by omega)⟩

theorem trim_spaces_within (text : List Char) : trimSpaces (' ' :: text ++ [' ']) = trimSpaces text := by
  unfold trimSpaces
  rw [List.cons_append, List.dropWhile_cons_of_pos (by decide), List.dropWhile_append]
  split
  · rename_i blank
    rw [List.isEmpty_iff.mp blank]
    rfl
  · rw [drop_trailing_append, if_pos (by decide)]

def cellText (cell : List Inline) : List Char :=
  cell.flatMap fun element =>
    match element with
    | .text content => content.toList
    | _ => []

def PlainRow (row : List (List Inline)) : Prop :=
  ∀ cell ∈ row, ∀ element ∈ cell, ∃ content, element = .text content

def rowLine (inHead : Bool) (row : List (List Inline)) : List Char :=
  bar inHead ++ row.flatMap fun cell => ' ' :: escapeText (cellText cell) ++ ' ' :: bar inHead

theorem row_cells_iff (inHead : Bool) (row : List (List Inline)) :
    rowCells inHead (rowLine inHead row) =
        row.map (fun cell => trimSpaces (escapeText (cellText cell))) ↔
      ∀ cell ∈ row, Barless inHead (cellText cell) := by
  let texts := row.map fun cell => escapeText (cellText cell)
  have pieces : rowPieces inHead .text [] (rowLine inHead row) =
      [] :: (texts.flatMap (cellPieces inHead) ++ [[]]) := by
    rw [← row_pieces_cells, List.flatMap_map, rowLine]
    cases inHead <;> simp [rowPieces, bar, List.isPrefixOf]
  have read : rowCells inHead (rowLine inHead row) =
      (row.flatMap fun cell => cellPieces inHead (escapeText (cellText cell))).map trimSpaces := by
    rw [rowCells, pieces, List.flatMap_map]
    simp
  rw [read]
  constructor
  · intro same
    have count := congrArg List.length same
    rw [List.length_map, List.length_map] at count
    intro cell member
    refine (cell_pieces_barless inHead _).2.1.mp ?_
    exact flat_map_single _ row (fun cell _ => (cell_pieces_barless inHead _).1) (Nat.le_of_eq count)
      cell member
  · intro barless
    have each : ∀ cell ∈ row, cellPieces inHead (escapeText (cellText cell)) =
        [' ' :: escapeText (cellText cell) ++ [' ']] := fun cell member =>
      (cell_pieces_barless inHead _).2.2 (barless cell member)
    rw [List.flatMap_congr each, ← List.map_eq_flatMap, List.map_map]
    exact List.map_congr_left fun cell _ => trim_spaces_within _

theorem row_line_ends (inHead : Bool) (row : List (List Inline)) :
    '\n' ∈ rowLine inHead row ↔ ∃ cell ∈ row, '\n' ∈ cellText cell := by
  have escaped (text : List Char) : '\n' ∈ escapeText text ↔ '\n' ∈ text :=
    escape_text_mem text '\n' (by decide)
  have bars : '\n' ∉ bar inHead := by cases inHead <;> decide
  simp [rowLine, escaped, bars]

theorem plain_cell_markup (n : Nat) (cell : List Inline)
    (plain : ∀ element ∈ cell, ∃ content, element = .text content) :
    inlinesMarkup n cell = escapeText (cellText cell) ∧ inlinesCode cell = [] := by
  induction cell generalizing n with
  | nil => exact ⟨rfl, rfl⟩
  | cons element cell ih =>
      obtain ⟨⟨content, rfl⟩, others⟩ := List.forall_mem_cons.mp plain
      obtain ⟨markup, code⟩ := ih (n + 0) others
      rw [inlinesMarkup, inlinesCode, inlineCode, code]
      refine ⟨?_, rfl⟩
      rw [List.length_nil, markup]
      simp [inlineMarkup, escapeText, cellText]

theorem plain_row_code (row : List (List Inline)) (plain : PlainRow row) : cellsCode row = [] := by
  refine List.flatMap_eq_nil_iff.mpr fun cell member => ?_
  exact (plain_cell_markup 0 cell (plain cell member)).2

theorem later_cells_markup (inHead : Bool) (n : Nat) (row : List (List Inline)) (plain : PlainRow row) :
    cellsMarkup inHead false n row ++ ' ' :: bar inHead =
      ' ' :: bar inHead ++ row.flatMap fun cell => ' ' :: escapeText (cellText cell) ++ ' ' :: bar inHead := by
  induction row generalizing n with
  | nil => simp [cellsMarkup]
  | cons cell row ih =>
      obtain ⟨own, others⟩ := List.forall_mem_cons.mp plain
      have bars : between inHead = ' ' :: bar inHead ++ [' '] := by cases inHead <;> rfl
      rw [cellsMarkup, (plain_cell_markup n cell own).1, if_neg Bool.false_ne_true, List.append_assoc,
        ih _ others, bars, List.flatMap_cons]
      simp

theorem row_markup (inHead : Bool) (n : Nat) (row : List (List Inline)) (plain : PlainRow row)
    (some : row ≠ []) :
    bar inHead ++ ' ' :: (cellsMarkup inHead true n row ++ ' ' :: bar inHead) = rowLine inHead row := by
  cases row with
  | nil => exact absurd rfl some
  | cons cell row =>
      obtain ⟨own, others⟩ := List.forall_mem_cons.mp plain
      rw [cellsMarkup, (plain_cell_markup n cell own).1, if_pos rfl, List.append_assoc,
        later_cells_markup inHead _ row others, rowLine, List.flatMap_cons]
      simp

def tableLines (head : List (List Inline)) (rows : List (List (List Inline))) : List (List Char) :=
  rowLine true head :: rows.map (rowLine false)

def endedLines (lines : List (List Char)) : List Char := lines.flatMap (· ++ ['\n'])

theorem ended_lines_cons (line : List Char) (lines : List (List Char)) :
    endedLines (line :: lines) = line ++ '\n' :: endedLines lines := by
  simp [endedLines]

structure PlainTable (head : List (List Inline)) (rows : List (List (List Inline))) : Prop where
  head : PlainRow head
  rows : ∀ row ∈ rows, PlainRow row

theorem rows_markup_lines (n : Nat) (rows : List (List (List Inline))) (plain : ∀ row ∈ rows, PlainRow row)
    (some : ∀ row ∈ rows, row ≠ []) : rowsMarkup n rows = endedLines (rows.map (rowLine false)) := by
  induction rows generalizing n with
  | nil => rfl
  | cons row rows ih =>
      obtain ⟨own, others⟩ := List.forall_mem_cons.mp plain
      obtain ⟨first, later⟩ := List.forall_mem_cons.mp some
      rw [rowsMarkup, ih _ others later, List.map_cons, ended_lines_cons, ← row_markup false n row own first]
      simp [bar]

theorem table_markup_lines (theme : Option String) (place : Place) (n : Nat)
    (columns : List Markdown.Alignment) (head : List (List Inline)) (rows : List (List (List Inline)))
    (plain : PlainTable head rows) (wide : head ≠ []) (some : ∀ row ∈ rows, row ≠ []) :
    blockMarkup theme place n (.table columns head rows) = endedLines (tableLines head rows) ++ ['\n'] ∧
      blockCode theme (.table columns head rows) = [] := by
  refine ⟨?_, ?_⟩
  · rw [blockMarkup, rows_markup_lines _ rows plain.rows some, tableLines, ended_lines_cons,
      ← row_markup true n head plain.head wide]
    simp [bar]
  · rw [blockCode, plain_row_code head plain.head, List.nil_append]
    exact List.flatMap_eq_nil_iff.mpr fun row member => plain_row_code row (plain.rows row member)

theorem row_line_last (inHead : Bool) (row : List (List Inline)) :
    (rowLine inHead row).getLast? = some '|' := by
  have last (front : List Char) : (front ++ bar inHead).getLast? = some '|' := by
    cases inHead <;> simp [bar]
  cases row using List.reverseRecOn with
  | nil => simpa [rowLine] using last []
  | append_singleton row cell =>
      have whole : rowLine inHead (row ++ [cell]) = (bar inHead ++ (row.flatMap fun cell =>
          ' ' :: escapeText (cellText cell) ++ ' ' :: bar inHead) ++
            ' ' :: escapeText (cellText cell) ++ [' ']) ++ bar inHead := by
        simp [rowLine]
      rw [whole, last]

theorem table_lines_lined (before text : List Char) (head : List (List Inline))
    (rows : List (List (List Inline)))
    (lined : Lined (before ++ (endedLines (tableLines head rows) ++ ['\n'])) text) :
    before ++ endedLines (tableLines head rows) <+: text := by
  obtain ⟨front, line, split, last⟩ : ∃ front line, tableLines head rows = front ++ [line] ∧
      line.getLast? = some '|' := by
    cases rows using List.reverseRecOn with
    | nil => exact ⟨[], _, rfl, row_line_last true head⟩
    | append_singleton rows row =>
        exact ⟨rowLine true head :: rows.map (rowLine false), _, by simp [tableLines],
          row_line_last false row⟩
  have whole : before ++ endedLines (tableLines head rows) =
      (before ++ (endedLines front ++ line)) ++ ['\n'] := by
    rw [split]
    simp [endedLines]
  have ended : (before ++ (endedLines front ++ line)).getLast? ≠ some '\n' := by
    rw [List.getLast?_append, List.getLast?_append, last]
    simp
  rw [whole]
  refine lined _ ended ?_
  rw [← whole, ← List.append_assoc]
  exact List.prefix_append _ _

structure RowRead (inHead : Bool) (row : List (List Inline)) : Prop where
  single : '\n' ∈ rowLine inHead row ↔ ∃ cell ∈ row, '\n' ∈ cellText cell
  cells : rowCells inHead (rowLine inHead row) =
      row.map (fun cell => trimSpaces (escapeText (cellText cell))) ↔
    ∀ cell ∈ row, Barless inHead (cellText cell)

/- The rows of all tables of plain text. Each is written as a line, and as one line unless a text has a
   line end. Its cells are read back unless a text has a bar that is not escaped. -/
structure RowsApart (theme : Option String) (document : Document) : Prop where
  all : (documentStarts theme document).map BlockStart.pair = blocksPairs none document
  even : ∀ start ∈ documentStarts theme document, ∀ columns head rows,
    start.block = .table columns head rows → head ≠ [] ∧ ∀ row ∈ rows, row.length = head.length
  stands : ∀ start ∈ documentStarts theme document, ∀ columns head rows,
    start.block = .table columns head rows → PlainTable head rows →
    start.before ++ endedLines (tableLines head rows) <+: (Writer.ofDocument theme document).finish
  written : ∀ (w : Writer) columns head rows, w.Ready → PlainTable head rows → head ≠ [] →
    (∀ row ∈ rows, row ≠ []) →
    Writer.Extends w ((Event.ofBlock (.table columns head rows)).foldl (Writer.step theme) w)
      (endedLines (tableLines head rows) ++ ['\n']) []
  rows : ∀ inHead row, PlainRow row → RowRead inHead row

theorem document_rows_apart (theme : Option String) (source : String) :
    RowsApart theme (Markdown.parse source) := by
  have even (start : BlockStart) (member : start ∈ documentStarts theme (Markdown.parse source))
      (columns : List Markdown.Alignment) (head : List (List Inline)) (rows : List (List (List Inline)))
      (table : start.block = .table columns head rows) :
      head ≠ [] ∧ ∀ row ∈ rows, row.length = head.length := by
    have regular := document_starts_regular theme source start member
    rw [table] at regular
    cases regular with
    | table _ _ _ wide even => exact ⟨wide, even⟩
  constructor
  case all => exact blocks_starts_all theme _ 0 [] none _
  case even => exact even
  case stands =>
    intro start member columns head rows table plain
    obtain ⟨wide, same⟩ := even start member columns head rows table
    have some : ∀ row ∈ rows, row ≠ [] := fun row member empty =>
      wide (List.eq_nil_of_length_eq_zero ((same row member).symm.trans (by rw [empty]; rfl)))
    obtain ⟨⟨place, n, markup⟩, lined⟩ := document_starts_written theme lined_standing _ start member
    rw [markup, table, (table_markup_lines theme place n columns head rows plain wide some).1] at lined
    exact table_lines_lined _ _ head rows lined
  case written =>
    intro w columns head rows ready plain wide some
    have table := Writer.write_block theme w (.table columns head rows) ready
    obtain ⟨markup, code⟩ := table_markup_lines theme w.place w.kept.size columns head rows plain wide some
    rwa [markup, code] at table
  case rows => exact fun inHead row _ => ⟨row_line_ends inHead row, row_cells_iff inHead row⟩

theorem escaped_bar_splits_cell :
    convert {} "| a |\n|---|\n| b\\|c |" = .ok "|| a ||\n| b|c |\n" ∧
    (Markdown.parse "| a |\n|---|\n| b\\|c |").events =
      [.start (.table [.unset]), .start .tableHead, .start .tableCell, .text "a", .stop .tableCell,
        .stop .tableHead, .start .tableRow, .start .tableCell, .text "b|c", .stop .tableCell, .stop .tableRow,
        .stop (.table [.unset])] ∧
    (Writer.ofDocument none (Markdown.parse "| a |\n|---|\n| b\\|c |")).finish =
      "|| a ||\n| b|c |\n\n".toList ∧
    rowCells false "| b|c |".toList = ["b".toList, "c".toList] ∧
    convert {} "| a |\n|---|\n| b&#10;c |" = .ok "|| a ||\n| b\nc |\n" := by
  refine ⟨?_, ?_, ?_, ?_, ?_⟩
  · decide +kernel
  · decide +kernel
  · decide +kernel
  · decide +kernel
  · decide +kernel

end MarkdownServer.Wiki
