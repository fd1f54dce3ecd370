import MarkdownServer.Proofs.Wiki.Braces
/- Links of plain text. A link whose text is what it leads to is written without the text. But the text is
   compared as it is written, with its braces escaped, so an address with a brace stands there twice. -/
set_option autoImplicit false

namespace MarkdownServer.Wiki

open Markdown (Event Target)

def plainLink (email : Bool) (target : Target) (contents : List String) : List Event :=
  Event.within (.link email target) (contents.map .text)

theorem escape_text_length (text : List Char) :
    (escapeText text).length = text.length + text.countP isBrace := by
  induction text with
  | nil => rfl
  | cons c text ih =>
      rw [escape_text_cons, List.length_append, ih, List.countP_cons]
      by_cases brace : c = '\x7b' ∨ c = '\x7d'
      · simp [escapeTextChar, isBrace, brace]
        omega
      · simp [escapeTextChar, isBrace, brace]
        omega

theorem escape_text_same (text : List Char) : escapeText text = text ↔ ∀ c ∈ text, isBrace c = false := by
  have length := escape_text_length text
  constructor
  · intro same
    rw [same] at length
    have none : text.countP isBrace = 0 := by omega
    simpa using List.countP_eq_zero.mp none
  · intro free
    have none : text.countP isBrace = 0 := by simpa using free
    have longer := (escape_text_sublist text).length_le
    exact ((escape_text_sublist text).eq_of_length_le (by omega)).symm

namespace Writer

theorem write_buffer (w : Writer) (text : List Char) : (w.write text).buffer = text.reverse ++ w.buffer := by
  rcases w with ⟨output, captures, kept, lists, containers, code, inHead, cells⟩
  cases captures <;> rfl

theorem write_injective (w : Writer) (text more : List Char) (same : w.write text = w.write more) :
    text = more := by
  have buffers := congrArg buffer same
  rw [write_buffer, write_buffer] at buffers
  simpa using buffers

theorem write_texts (theme : Option String) (w : Writer) (contents : List String) (closed : w.code = none) :
    (contents.map Event.text).foldl (step theme) w =
      w.write (escapeText (contents.flatMap String.toList)) := by
  induction contents generalizing w with
  | nil =>
      rw [write_append]
      exact (append_nil w).symm
  | cons content contents ih =>
      have first := step_text theme w content closed
      have rest := ih (w.append (escapeText content.toList) []) (by simpa using closed)
      rw [List.map_cons, List.foldl_cons, first, rest, write_append, append_append, write_append,
        List.flatMap_cons, escape_text_append]
      rfl

theorem write_plain_link (theme : Option String) (w : Writer) (email : Bool) (target : Target)
    (contents : List String) (closed : w.code = none) :
    (plainLink email target contents).foldl (step theme) w =
      w.write ((Goal.link email target.url.toList).render (escapeText (contents.flatMap String.toList))) := by
  have inner := write_texts theme { w with captures := ⟨.link email target.url.toList, []⟩ :: w.captures }
    contents closed
  rw [plainLink, Event.within, List.foldl_cons, List.foldl_append]
  refine (congrArg (step theme · (.stop (.link email target))) inner).trans ?_
  rw [write_append, write_append]
  exact release_append w _ _ []

end Writer

theorem link_collapsed (url : List Char) (free : ∀ c ∈ url, isBrace c = false) :
    (Goal.link false url).render (escapeText url) = '[' :: url ++ [']'] := by
  rw [(escape_text_same url).mpr free]
  dsimp only [Goal.render]
  rw [if_pos (.inr rfl)]

theorem link_doubled (url : List Char) (braced : ∃ c ∈ url, isBrace c = true) :
    (Goal.link false url).render (escapeText url) = '[' :: escapeText url ++ '|' :: url ++ [']'] := by
  obtain ⟨c, member, brace⟩ := braced
  have other : escapeText url ≠ url := by
    intro same
    have plain := (escape_text_same url).mp same c member
    rw [brace] at plain
    cases plain
  have written : escapeText url ≠ [] := by
    intro empty
    have inside := (escape_text_sublist url).subset member
    rw [empty] at inside
    cases inside
  dsimp only [Goal.render]
  rw [if_neg (by simp [other, written])]

/- A link whose text is its address is written as the address alone, if and only if no brace is in it. With a
   brace, the text stands in front of the address. A mail address stands alone in any case. -/
structure PlainLinksCollapse (theme : Option String) (w : Writer) (target : Target)
    (contents : List String) : Prop where
  collapsed : (plainLink false target contents).foldl (Writer.step theme) w =
      w.write ('[' :: target.url.toList ++ [']']) ↔ ∀ c ∈ target.url.toList, isBrace c = false
  doubled : (∃ c ∈ target.url.toList, isBrace c = true) →
    (plainLink false target contents).foldl (Writer.step theme) w =
      w.write ('[' :: escapeText target.url.toList ++ '|' :: target.url.toList ++ [']'])
  address : (plainLink true target contents).foldl (Writer.step theme) w =
    w.write ("[mailto:".toList ++ target.url.toList ++ [']'])

theorem plain_links_collapse (theme : Option String) (w : Writer) (target : Target) (contents : List String)
    (closed : w.code = none) (same : contents.flatMap String.toList = target.url.toList) :
    PlainLinksCollapse theme w target contents where
  collapsed := by
    rw [Writer.write_plain_link theme w false target contents closed, same]
    constructor
    · intro alone
      by_contra braced
      push Not at braced
      have written := Writer.write_injective w _ _ alone
      rw [link_doubled _ (by simpa using braced)] at written
      have lengths := congrArg List.length written
      simp only [List.length_append, List.length_cons, List.length_nil] at lengths
      omega
    · intro free
      rw [link_collapsed _ free]
  doubled braced := by
    rw [Writer.write_plain_link theme w false target contents closed, same, link_doubled _ braced]
  address := Writer.write_plain_link theme w true target contents closed

theorem plain_links_collapse_pieces :
    let w : Writer := { captures := [⟨.image ['o'], ['z']⟩], lists := [.bullet], containers := [.item] }
    w.code = none ∧ ["http:", "//a"].flatMap String.toList = "http://a".toList ∧
      (plainLink false ⟨"http://a", ""⟩ ["http:", "//a"]).foldl (Writer.step none) w =
        w.write "[http://a]".toList ∧
      (plainLink true ⟨"http://a", ""⟩ ["http:", "//a"]).foldl (Writer.step none) w =
        w.write "[mailto:http://a]".toList := by
  intro w
  have same : ["http:", "//a"].flatMap String.toList = "http://a".toList := by decide
  have collapse := plain_links_collapse none w ⟨"http://a", ""⟩ ["http:", "//a"] rfl same
  have free : ∀ c ∈ "http://a".toList, isBrace c = false := by
    have none : "http://a".toList.any isBrace = false := by decide
    simpa using none
  exact ⟨rfl, same, collapse.collapsed.mpr free, collapse.address⟩

theorem braced_autolink_doubled :
    (Markdown.parse "<http://a/\x7bb\x7d>").events =
      .start .paragraph :: plainLink false ⟨"http://a/\x7bb\x7d", ""⟩ ["http://a/\x7bb\x7d"] ++
        [.stop .paragraph] ∧
    (plainLink false ⟨"http://a/\x7bb\x7d", ""⟩ ["http://a/\x7bb\x7d"]).foldl (Writer.step none) {} ≠
      ({} : Writer).write "[http://a/\x7bb\x7d]".toList ∧
    convert {} "<http://a/\x7bb\x7d>" = .ok "[http://a/\\\x7bb\\\x7d|http://a/\x7bb\x7d]\n" := by
  refine ⟨?_, ?_, ?_⟩
  · decide +kernel
  · intro same
    have outputs := congrArg Writer.output same
    revert outputs
    decide +kernel
  · decide +kernel

end MarkdownServer.Wiki
