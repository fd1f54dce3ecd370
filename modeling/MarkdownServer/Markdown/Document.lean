/- Markdown documents as trees. A block holds its text as some type of content: the source of the
   text while the block structure is being found, the inline elements afterwards. -/
set_option autoImplicit false

namespace MarkdownServer.Markdown

inductive Style where
  | emphasis
  | strong
  | struck
deriving DecidableEq, Repr

structure Target where
  url : String
  title : String
deriving DecidableEq, Repr

inductive Inline where
  | text (content : String)
  | code (content : String)
  | html (content : String)
  | softBreak
  | hardBreak
  | task (done : Bool)
  | styled (style : Style) (children : List Inline)
  | link (email : Bool) (target : Target) (children : List Inline)
  | image (target : Target) (children : List Inline)
deriving Repr

inductive Alignment where
  | unset
  | left
  | center
  | right
deriving DecidableEq, Repr

structure HtmlLine where
  padding : Nat
  content : String
deriving DecidableEq, Repr

inductive Block (ι : Type) where
  | paragraph (content : ι)
  | tight (content : ι)
  | heading (level : Nat) (content : ι)
  | quote (children : List (Block ι))
  | list (start : Option Nat) (items : List (List (Block ι)))
  /-- An indented block has no `info`; a fenced one may have an empty one. -/
  | code (info : Option String) (content : String)
  | html (lines : List HtmlLine)
  | rule
  | table (columns : List Alignment) (head : List ι) (rows : List (List ι))
deriving Repr

namespace Block

def tighten {ι : Type} : Block ι → Block ι
  | .paragraph content => .tight content
  | block => block

variable {ι κ σ : Type}

def visit (f : ι → σ → κ × σ) : List ι → σ → List κ × σ
  | [], s => ([], s)
  | x :: xs, s =>
      let (y, s) := f x s
      let (ys, s) := visit f xs s
      (y :: ys, s)

def visitRows (f : ι → σ → κ × σ) : List (List ι) → σ → List (List κ) × σ
  | [], s => ([], s)
  | row :: rows, s =>
      let (row, s) := visit f row s
      let (rows, s) := visitRows f rows s
      (row :: rows, s)

mutual
def mapContent (f : ι → σ → κ × σ) : Block ι → σ → Block κ × σ
  | .paragraph content, s => let (c, s) := f content s; (.paragraph c, s)
  | .tight content, s => let (c, s) := f content s; (.tight c, s)
  | .heading level content, s => let (c, s) := f content s; (.heading level c, s)
  | .quote children, s => let (cs, s) := mapContents f children s; (.quote cs, s)
  | .list start items, s => let (is, s) := mapItems f items s; (.list start is, s)
  | .code info content, s => (.code info content, s)
  | .html lines, s => (.html lines, s)
  | .rule, s => (.rule, s)
  | .table columns head rows, s =>
      let (head, s) := visit f head s
      let (rows, s) := visitRows f rows s
      (.table columns head rows, s)

def mapContents (f : ι → σ → κ × σ) : List (Block ι) → σ → List (Block κ) × σ
  | [], s => ([], s)
  | block :: blocks, s =>
      let (block, s) := mapContent f block s
      let (blocks, s) := mapContents f blocks s
      (block :: blocks, s)

def mapItems (f : ι → σ → κ × σ) : List (List (Block ι)) → σ → List (List (Block κ)) × σ
  | [], s => ([], s)
  | item :: items, s =>
      let (item, s) := mapContents f item s
      let (items, s) := mapItems f items s
      (item :: items, s)
end

end Block

abbrev Document := List (Block (List Inline))

end MarkdownServer.Markdown
