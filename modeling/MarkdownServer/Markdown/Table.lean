import MarkdownServer.Markdown.Document
import MarkdownServer.Markdown.Source
/- Rows of tables: where a line is cut into cells, and the row of hyphens below the head. A bar that
   stands behind a backslash never separates cells. -/
set_option autoImplicit false

namespace MarkdownServer.Markdown.Table

structure Column where
  alignment : Alignment
  empty : Bool
  hyphen : Bool

def Column.fresh : Column := ⟨.unset, true, false⟩

def Column.colon (column : Column) : Column :=
  let alignment :=
    match column.empty, column.alignment with
    | true, .unset => .left
    | false, .left => .center
    | false, .unset => .right
    | _, other => other
  { column with alignment, empty := false }

def columns (done : List Alignment) (current : Column) (bar hyphen : Bool) :
    List Char → Option (List Alignment)
  | [] =>
      let all := if current.empty then done else current.alignment :: done
      if bar && hyphen && !all.isEmpty then some all.reverse else none
  | ' ' :: rest => columns done current bar hyphen rest
  | ':' :: rest => columns done current.colon bar hyphen rest
  | '-' :: rest => columns done { current with empty := false, hyphen := true } bar true rest
  | '|' :: rest =>
      if current.hyphen then columns (current.alignment :: done) .fresh true hyphen rest else none
  | _ :: _ => none

def delimiterRow? (text : List Char) : Option (List Alignment) :=
  let indent := runLength ' ' text
  if 3 < indent then none
  else
    match text.drop indent with
    | [] => none
    | '|' :: rest => columns [] .fresh true false rest
    | rest => columns [] .fresh false false rest

def bars (count : Nat) (closed : Bool) (before : Option Char) : List Char → Nat × Bool
  | [] => (count, closed)
  | c :: rest =>
      if c = '|' ∧ before ≠ some '\\' then bars (count + 1) true (some c) rest
      else bars count (closed && isLineBlank c) (some c) rest

def headColumns? (text : List Char) : Option Nat :=
  let (count, closed) := bars 0 false none text
  if count = 0 then none
  else
    let opened := (text.dropWhile isLineBlank).head? == some '|'
    some (count + (if closed then 0 else 1) - (if opened then 1 else 0))

mutual
def cellsFrom : List Char → List (List Char)
  | [] => []
  | c :: rest =>
      if c = '|' then [] :: cellsFrom rest
      else if isLineBlank c then cellsFrom rest
      else cellTo c [c] rest

def cellTo (before : Char) (text : List Char) : List Char → List (List Char)
  | [] => [(text.dropWhile isLineBlank).reverse]
  | c :: rest =>
      if c = '|' ∧ before ≠ '\\' then (text.dropWhile isLineBlank).reverse :: cellsFrom rest
      else cellTo c (c :: text) rest
end

def cells (row : List Char) : List (List Char) :=
  match row with
  | '|' :: rest => cellsFrom rest
  | _ => cellsFrom row

def fitRow {α : Type} (width : Nat) (empty : α) (row : List α) : List α :=
  row.take width ++ List.replicate (width - row.length) empty

theorem length_fit_row {α : Type} (width : Nat) (empty : α) (row : List α) :
    (fitRow width empty row).length = width := by
  simp only [fitRow, List.length_append, List.length_take, List.length_replicate]
  omega

end MarkdownServer.Markdown.Table
