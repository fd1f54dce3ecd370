import MarkdownServer.Proofs.Wiki.Events
/- Code macros, read back from the page. The parameters and the text of a macro are written as they are, so a
   macro comes apart into them only where no parameter has a mark of the header and the text has no end of a
   macro. -/
set_option autoImplicit false

namespace MarkdownServer.Wiki

open Markdown (Event)

def macroEnd : List Char := "\x7bcode\x7d".toList

def bodyTo : List Char → Option (List Char × List Char)
  | [] => none
  | c :: rest =>
      if macroEnd.isPrefixOf (c :: rest) then some ([], (c :: rest).drop macroEnd.length)
      else (bodyTo rest).map fun found => (c :: found.1, found.2)

def headerParameters : List Char → List (List Char)
  | ':' :: names => names.splitOn '|'
  | _ => []

def withoutLastFeed (text : List Char) : List Char :=
  if text.getLast? = some '\n' then text.dropLast else text

def macroText : List Char → List Char
  | '\n' :: rest => withoutLastFeed rest
  | body => withoutLastFeed body

/- The parameters and the text of a macro: the header ends at the first closing brace, and the body at the
   first end of a macro, which nothing may follow. -/
def readMacro (text : List Char) : Option (List (List Char) × List Char) :=
  if "\x7bcode".toList.isPrefixOf text then
    let rest := text.drop "\x7bcode".toList.length
    let header := rest.takeWhile (· ≠ '\x7d')
    match bodyTo (rest.drop (header.length + 1)) with
    | some (body, []) => some (headerParameters header, macroText body)
    | _ => none
  else none

theorem prefix_to (part front back : List Char) (c : Char) (other : c ∉ part)
    (starts : part <+: front ++ c :: back) : part <+: front := by
  obtain ⟨more, same⟩ := starts
  obtain ⟨middle, rfl, -⟩ | ⟨middle, rfl, rest⟩ := List.append_eq_append_iff.mp same
  · exact List.prefix_append part middle
  · cases middle with
    | nil => simp
    | cons d middle =>
        obtain ⟨rfl, -⟩ := List.cons.inj rest
        exact absurd (List.mem_append_right front List.mem_cons_self) other

theorem macro_end_within (front back : List Char) (starts : macroEnd <+: front ++ '\n' :: back) :
    macroEnd <+: front :=
  prefix_to macroEnd front back '\n' (by decide) starts

theorem body_to_free (text : List Char) (free : ¬ macroEnd <:+: text) :
    bodyTo (text ++ '\n' :: macroEnd) = some (text ++ ['\n'], []) := by
  induction text with
  | nil => rfl
  | cons c text ih =>
      have here : ¬ macroEnd.isPrefixOf (c :: (text ++ '\n' :: macroEnd)) = true := fun starts =>
        free (macro_end_within (c :: text) macroEnd (List.isPrefixOf_iff_prefix.mp starts)).isInfix
      rw [List.cons_append, bodyTo, if_neg here, ih fun inside => free (List.infix_cons inside)]
      rfl

theorem body_to_taken (text : List Char) (taken : macroEnd <:+: text) :
    ∃ body behind, bodyTo (text ++ '\n' :: macroEnd) = some (body, behind) ∧ behind ≠ [] := by
  induction text with
  | nil => exact absurd (List.infix_nil.mp taken) (by decide)
  | cons c text ih =>
      rw [List.cons_append, bodyTo]
      by_cases here : macroEnd <+: c :: text
      · obtain ⟨rest, same⟩ := here
        have starts : macroEnd.isPrefixOf (c :: (text ++ '\n' :: macroEnd)) = true := by
          rw [List.isPrefixOf_iff_prefix, ← List.cons_append, ← same, List.append_assoc]
          exact List.prefix_append macroEnd _
        refine ⟨[], rest ++ '\n' :: macroEnd, ?_, by simp⟩
        rw [if_pos starts, ← List.cons_append, ← same, List.append_assoc, List.drop_left]
      · have later : ¬ macroEnd.isPrefixOf (c :: (text ++ '\n' :: macroEnd)) = true := fun starts =>
          here (macro_end_within (c :: text) macroEnd (List.isPrefixOf_iff_prefix.mp starts))
        obtain ⟨body, behind, found, left⟩ := ih ((List.infix_cons_iff.mp taken).resolve_left here)
        exact ⟨c :: body, behind, by rw [if_neg later, found]; rfl, left⟩

def macroHeader (language theme : Option String) : List Char :=
  match codeParameters language theme with
  | [] => []
  | names => ':' :: ['|'].intercalate (names.map String.toList)

theorem code_macro_framed (language theme : Option String) (text : List Char) :
    codeMacro language theme text = "\x7bcode".toList ++ (macroHeader language theme ++
      '\x7d' :: ('\n' :: withoutLastFeed text ++ '\n' :: macroEnd)) := by
  have header : (if (codeParameters language theme).isEmpty then ""
      else ":" ++ "|".intercalate (codeParameters language theme)).toList = macroHeader language theme := by
    unfold macroHeader
    cases codeParameters language theme with
    | nil => rfl
    | cons name names =>
        rw [if_neg (by simp), String.toList_append, String.toList_intercalate]
        rfl
  unfold codeMacro
  dsimp only
  rw [header, List.append_assoc, List.append_assoc, List.append_assoc]
  rfl

theorem split_free (c : Char) (text : List Char) : ∀ piece ∈ text.splitOn c, c ∉ piece := by
  induction text with
  | nil => simp
  | cons d text ih =>
      rw [List.splitOn_cons_eq_if_modifyHead]
      split
      · exact List.forall_mem_cons.mpr ⟨List.not_mem_nil, ih⟩
      · rename_i other
        cases pieces : text.splitOn c with
        | nil => exact absurd pieces (List.splitOn_ne_nil c text)
        | cons first pieces =>
            rw [pieces] at ih
            obtain ⟨own, others⟩ := List.forall_mem_cons.mp ih
            refine List.forall_mem_cons.mpr ⟨fun member => ?_, others⟩
            obtain same | inside := List.mem_cons.mp member
            · exact other (by simp [same])
            · exact own inside

theorem joined_has (c d : Char) (other : c ≠ d) (names : List (List Char)) :
    c ∈ [d].intercalate names ↔ ∃ name ∈ names, c ∈ name := by
  induction names with
  | nil => simp
  | cons name names ih =>
      cases names with
      | nil => simp
      | cons next names =>
          rw [List.intercalate_cons_cons, List.append_assoc, List.mem_append, List.mem_append, ih]
          simp [other]

def PlainName (name : String) : Prop := '\x7d' ∉ name.toList ∧ '|' ∉ name.toList

instance (name : String) : Decidable (PlainName name) :=
  inferInstanceAs (Decidable ('\x7d' ∉ name.toList ∧ '|' ∉ name.toList))

section
variable (language theme : Option String)

theorem header_closed : '\x7d' ∈ macroHeader language theme ↔
    ∃ name ∈ codeParameters language theme, '\x7d' ∈ name.toList := by
  unfold macroHeader
  split
  · rename_i none
    simp [none]
  · rw [List.mem_cons, joined_has '\x7d' '|' (by decide)]
    simp

theorem header_whole (header : List Char) (part : header <+: macroHeader language theme)
    (read : headerParameters header = (codeParameters language theme).map String.toList) :
    header = macroHeader language theme := by
  unfold macroHeader at part ⊢
  split at part
  · exact List.prefix_nil.mp part
  · rename_i names some
    cases header with
    | nil =>
        have none : codeParameters language theme = [] := List.map_eq_nil_iff.mp read.symm
        exact absurd none some
    | cons c names' =>
        obtain ⟨rfl, -⟩ := List.cons_prefix_cons.mp part
        have joined : ['|'].intercalate (names'.splitOn '|') = names' := List.intercalate_splitOn '|'
        rw [show names'.splitOn '|' = _ from read] at joined
        rw [joined]

theorem header_parameters_iff :
    headerParameters (macroHeader language theme) = (codeParameters language theme).map String.toList ↔
      ∀ name ∈ codeParameters language theme, '|' ∉ name.toList := by
  unfold macroHeader
  split
  · rename_i none
    simp [none, headerParameters]
  · rename_i names some
    constructor
    · intro read name member
      have split : List.splitOn '|' _ = _ := read
      exact split_free '|' _ _ (split ▸ List.mem_map_of_mem member)
    · intro free
      exact List.splitOn_intercalate '|' (by simpa using free) (by simpa using some)

theorem parameters_plain : (∀ name ∈ codeParameters language theme, PlainName name) ↔
    (∀ name ∈ language, PlainName name) ∧ ∀ name ∈ theme, PlainName name := by
  have prefixed (front name : String) (plain : PlainName front) :
      PlainName (front ++ name) ↔ PlainName name := by
    simp [PlainName, plain.1, plain.2]
  have themed (name : String) := prefixed "theme=" name (by decide)
  unfold codeParameters
  dsimp only
  split
  · have known : PlainName "language=text" ∧ PlainName "title=mermaid" ∧ PlainName "collapse=true" ∧
        PlainName "mermaid" := by decide
    simp [known, themed]
  · have known : PlainName "" := by decide
    simp [known, themed]
  · simp [prefixed "language=" _ (by decide), themed]
  · simp [themed]

end

theorem read_macro_framed (header text : List Char) :
    readMacro ("\x7bcode".toList ++ (header ++ '\x7d' :: text)) =
      match bodyTo ((header ++ '\x7d' :: text).drop ((header.takeWhile (· ≠ '\x7d')).length + 1)) with
      | some (body, []) => some (headerParameters (header.takeWhile (· ≠ '\x7d')), macroText body)
      | _ => none := by
  have named : "\x7bcode".toList.isPrefixOf ("\x7bcode".toList ++ (header ++ '\x7d' :: text)) = true :=
    List.isPrefixOf_iff_prefix.mpr (List.prefix_append _ _)
  have ended : (header ++ '\x7d' :: text).takeWhile (· ≠ '\x7d') = header.takeWhile (· ≠ '\x7d') := by
    rw [List.takeWhile_append]
    split
    · rename_i whole
      rw [(List.takeWhile_prefix _).eq_of_length whole]
      simp
    · rfl
  unfold readMacro
  rw [if_pos named, List.drop_left]
  dsimp only
  rw [ended]

theorem macro_text_framed (text : List Char) : macroText ('\n' :: text ++ ['\n']) = text := by
  simp [macroText, withoutLastFeed]

theorem code_macro_reads (language theme : Option String) (text : List Char) :
    readMacro (codeMacro language theme text) =
        some ((codeParameters language theme).map String.toList, withoutLastFeed text) ↔
      (∀ name ∈ codeParameters language theme, PlainName name) ∧ ¬ macroEnd <:+: withoutLastFeed text := by
  have behind : macroEnd <:+: '\n' :: withoutLastFeed text ↔ macroEnd <:+: withoutLastFeed text := by
    refine ⟨fun inside => (List.infix_cons_iff.mp inside).resolve_left fun starts => ?_, List.infix_cons⟩
    obtain ⟨other, -⟩ := List.cons_prefix_cons.mp starts
    cases other
  rw [code_macro_framed, read_macro_framed, ← behind]
  by_cases closed : '\x7d' ∈ macroHeader language theme
  · -- The header ends too early, so its parameters cannot come back.
    have short : (macroHeader language theme).takeWhile (· ≠ '\x7d') ≠ macroHeader language theme := by
      intro whole
      simpa using List.takeWhile_eq_self_iff.mp whole _ closed
    obtain ⟨name, member, brace⟩ := (header_closed language theme).mp closed
    refine iff_of_false (fun read => ?_) fun plain => absurd brace (plain.1 name member).1
    split at read
    · have parameters := congrArg Prod.fst (Option.some.inj read)
      exact short (header_whole language theme _ (List.takeWhile_prefix _) parameters)
    · cases read
  · have whole : (macroHeader language theme).takeWhile (· ≠ '\x7d') = macroHeader language theme := by
      refine List.takeWhile_eq_self_iff.mpr fun c member => ?_
      simpa using fun same : c = '\x7d' => closed (same ▸ member)
    have open' : ∀ name ∈ codeParameters language theme, '\x7d' ∉ name.toList := fun name member brace =>
      closed ((header_closed language theme).mpr ⟨name, member, brace⟩)
    have bars := header_parameters_iff language theme
    rw [whole, List.drop_length_add_append, List.drop_succ_cons, List.drop_zero]
    by_cases taken : macroEnd <:+: '\n' :: withoutLastFeed text
    · obtain ⟨body, left, found, more⟩ := body_to_taken _ taken
      refine iff_of_false (fun read => ?_) fun plain => plain.2 taken
      rw [found] at read
      cases left with
      | nil => exact more rfl
      | cons c left => cases read
    · rw [body_to_free _ taken]
      dsimp only
      rw [macro_text_framed, Option.some.injEq, Prod.mk.injEq, bars]
      simp only [PlainName, taken, not_false_eq_true, and_true]
      exact ⟨fun free name member => ⟨open' name member, free name member⟩,
        fun plain name member => (plain name member).2⟩

/- A block of code is kept as a macro. The macro is read back as the parameters and the text of the block,
   without the line end behind its last line, just where its language and theme have no brace and no bar that
   could end the header or a parameter, and its text has no end of a macro. -/
structure BlockRead (theme info : Option String) (texts : List String) : Prop where
  written : ∀ w : Writer, w.code = none →
    (Event.within (.code info) (texts.map .text)).foldl (Writer.step theme) w =
      w.append (Writer.placeholder w.kept.size ++ "\n\n".toList)
        [codeMacro (info.map Text.trim) theme (texts.flatMap String.toList)]
  read : readMacro (codeMacro (info.map Text.trim) theme (texts.flatMap String.toList)) =
      some ((codeParameters (info.map Text.trim) theme).map String.toList,
        withoutLastFeed (texts.flatMap String.toList)) ↔
    (∀ name ∈ info.map Text.trim, PlainName name) ∧ (∀ name ∈ theme, PlainName name) ∧
      ¬ macroEnd <:+: withoutLastFeed (texts.flatMap String.toList)

theorem code_blocks_read (theme info : Option String) (texts : List String) :
    BlockRead theme info texts where
  written w closed := Writer.write_code_block theme w info texts closed
  read := by rw [code_macro_reads, parameters_plain, and_assoc]

example : readMacro (codeMacro (some "mermaid") (some "Midnight") "a --> \x7bb\x7d\n".toList) =
    some (["language=text", "title=mermaid", "collapse=true", "theme=Midnight"].map String.toList,
      "a --> \x7bb\x7d".toList) := by decide +kernel

theorem braced_language_ends_header :
    convert {} "```\x7br\x7d\nx\n```" = .ok "\x7bcode:language=\x7br\x7d\x7d\nx\n\x7bcode\x7d\n" ∧
    (Markdown.parse "```\x7br\x7d\nx\n```").events =
      Event.within (.code (some "\x7br\x7d")) (["x\n"].map .text) ∧
    readMacro (codeMacro (some "\x7br\x7d") none "x\n".toList) =
      some (["language=\x7br".toList], "\x7d\nx".toList) ∧
    readMacro (codeMacro none (some "a|b") "x\n".toList) =
      some (["theme=a".toList, "b".toList], "x".toList) ∧
    readMacro (codeMacro none none "\x7bcode\x7d\n".toList) = none := by
  refine ⟨?_, ?_, ?_, ?_, ?_⟩
  · decide +kernel
  · decide +kernel
  · decide +kernel
  · decide +kernel
  · decide +kernel

end MarkdownServer.Wiki
