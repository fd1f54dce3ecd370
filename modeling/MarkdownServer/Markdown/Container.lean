import MarkdownServer.Markdown.Content
import MarkdownServer.Markdown.Link
import MarkdownServer.Markdown.Marker
/- Containers that are open while the lines of a document are read, innermost first, and how blocks
   are added to them and how they are closed. -/
set_option autoImplicit false

namespace MarkdownServer.Markdown

/-- An open container with the blocks or items it has so far, newest first. -/
inductive Frame where
  | quote (blocks : List Draft)
  | item (indent : Nat) (blocks : List Draft)
  | list (tight : Bool) (marker : Char) (start : Nat) (items : List (List Draft))

namespace Frame

def enter (frame : Frame) (c : Cursor) : Option Cursor :=
  match frame with
  | .quote _ => quoteMarker? (c.spaces 3).2
  | .item indent _ =>
      let (taken, c) := c.spaces indent
      if taken = indent ∨ c.atEnd then some c else none
  | .list .. => some c

def enterAll : List Frame → Cursor → Nat × Cursor
  | [], c => (0, c)
  | frame :: frames, c =>
      match frame.enter c with
      | some c =>
          let (count, c) := enterAll frames c
          (count + 1, c)
      | none => (0, c)

end Frame

structure Builder where
  spine : List Frame := []
  blocks : List Draft := []
  bareItem : Bool := false
  gap : Bool := false
  references : References := {}

namespace Builder

def frames (b : Builder) : List Frame :=
  b.spine.reverse

def add (b : Builder) (block : Draft) : Builder :=
  match b.spine with
  | [] => { b with blocks := block :: b.blocks }
  | .quote blocks :: rest => { b with spine := .quote (block :: blocks) :: rest }
  | .item indent blocks :: rest => { b with spine := .item indent (block :: blocks) :: rest }
  | .list tight marker start items :: rest =>
      { b with spine := .list tight marker start ([block] :: items) :: rest }

def push (b : Builder) (frame : Frame) : Builder :=
  { b with spine := frame :: b.spine }

def close (b : Builder) : Builder :=
  match b.spine with
  | [] => b
  | .quote blocks :: rest => { b with spine := rest }.add (.quote blocks.reverse)
  | .item _ blocks :: .list tight marker start items :: rest =>
      { b with spine := .list tight marker start (blocks.reverse :: items) :: rest }
  | .item _ blocks :: rest => blocks.reverse.foldl add { b with spine := rest }
  | .list tight marker start items :: rest =>
      let items := if tight then items.map (List.map Block.tighten) else items
      let block : Draft := .list (ListMarker.number? marker start) items.reverse
      { b with spine := rest, bareItem := b.bareItem && !tight }.add block

def closeMany (b : Builder) : Nat → Builder
  | 0 => b
  | n + 1 => b.close.closeMany n

def endBareItem (b : Builder) : Builder :=
  let b :=
    match b.bareItem && b.gap, b.spine with
    | true, .item .. :: _ => b.close
    | _, _ => b
  { b with bareItem := false }

/-- A blank line between two blocks of an item makes its list loose. -/
def loosen (b : Builder) : Builder :=
  match b.spine with
  | top :: .list _ marker start items :: rest =>
      { b with spine := top :: .list false marker start items :: rest }
  | _ => b

def endList (b : Builder) : Builder :=
  let b := b.endBareItem
  let b :=
    match b.spine with
    | .list .. :: _ => b.close
    | _ => b
  if b.gap then { b.loosen with gap := false } else b

def beginList (b : Builder) (marker : Char) (start : Nat) : Builder :=
  let b := b.endBareItem
  let fresh := { b.endList.push (.list true marker start []) with gap := false }
  match b.spine with
  | .list _ marker' start' items :: rest =>
      if marker = marker' then
        if b.gap then { b with spine := .list false marker' start' items :: rest, gap := false } else b
      else fresh
  | _ => fresh

/-- A blank line. After a marker with nothing behind it, the item cannot take up any text. -/
def blankLine (b : Builder) : Builder :=
  match b.spine with
  | .quote _ :: _ => b
  | .item _ blocks :: rest =>
      if b.bareItem then { b with spine := .item 0 blocks :: rest, gap := true } else { b with gap := true }
  | _ => { b with gap := true }

def finish (b : Builder) : List Draft :=
  (b.closeMany b.spine.length).blocks.reverse

end Builder
end MarkdownServer.Markdown
