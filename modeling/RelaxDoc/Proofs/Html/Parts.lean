import RelaxDoc.Proofs.Html.Reader
import Mathlib.Data.List.Basic

/-! The parts of a page: its tags, and the texts around them as they read when their escaping is
undone. -/
namespace RelaxDoc.Xml

theorem escapedChars_append (one other : String) :
    escapedChars (one ++ other) = escapedChars one ++ escapedChars other := by
  rw [escapedChars, String.toList_append, List.flatMap_append]
  rfl

end RelaxDoc.Xml

namespace RelaxDoc.Html

open Xml (escapedChars)

/-- The tag of a token, if it is one. -/
def Token.tags : Token → List Tag
  | .character _ => []
  | .markup tag => [tag]

/-- The tags of a page, in order. -/
def tags (page : String) : List Tag := (State.text.read page.toList).2.flatMap Token.tags

/-- The characters in front of the first tag, those between each two tags, and those behind the
last. -/
def stretches : List Token → List (List Char)
  | [] => [[]]
  | .character c :: rest => (stretches rest).modifyHead (c :: ·)
  | .markup _ :: rest => [] :: stretches rest

/-- The texts of a page around its tags, with their escaping undone. -/
def texts (page : String) : List (Option String) :=
  (stretches (State.text.read page.toList).2).map unescaped?

/-- A part of a page: a tag, words that are the page's own, or a text that is filled in. -/
inductive Part where
  | markup (tag : Tag)
  | words (text : String)
  | filled (text : String)
  deriving DecidableEq, Repr

namespace Part

/-- What a reader finds for a part. -/
def tokens : Part → List Token
  | .markup tag => [.markup tag]
  | .words text => (escapedChars text).map .character
  | .filled text => (escapedChars text).map .character

/-- The tag of a part, if it is one. -/
def tags : Part → List Tag
  | .markup tag => [tag]
  | .words _ => []
  | .filled _ => []

/-- The links of a part. -/
def links : Part → List (List Char)
  | .markup tag => tag.links
  | .words _ => []
  | .filled _ => []

/-- The text of a part, if it is one that is filled in. -/
def strings : Part → List String
  | .markup _ => []
  | .words _ => []
  | .filled text => [text]

/-- The texts of parts in front of the first tag, between each two tags, and behind the last. -/
def texts : List Part → List String
  | [] => [""]
  | .markup _ :: rest => "" :: texts rest
  | .words text :: rest => (texts rest).modifyHead (text ++ ·)
  | .filled text :: rest => (texts rest).modifyHead (text ++ ·)

/-- A start tag without attributes. -/
def opening (name : String) : Part := .markup ⟨name.toList, []⟩

/-- An end tag. -/
def closing (name : String) : Part := .markup ⟨'/' :: name.toList, []⟩

/-- Parts in an element without attributes. -/
def enclosed (name : String) (inner : List Part) : List Part :=
  opening name :: (inner ++ [closing name])

/-- The start tag of an anchor. -/
def anchor (link : String) : Part := .markup ⟨"a".toList, [⟨"href".toList, escapedChars link⟩]⟩

section Lemmas

variable (name text link : String) (inner : List Part)

@[simp] theorem links_words : (words text).links = [] := rfl

@[simp] theorem links_filled : (filled text).links = [] := rfl

@[simp] theorem links_markup (tag : Tag) : (markup tag).links = tag.links := rfl

@[simp] theorem links_anchor : (anchor link).links = [escapedChars link] := rfl

@[simp] theorem links_opening : (opening name).links = [] := rfl

@[simp] theorem links_closing : (closing name).links = [] := rfl

@[simp] theorem links_enclosed : (enclosed name inner).flatMap links = inner.flatMap links := by
  simp [enclosed]

@[simp] theorem strings_words : (words text).strings = [] := rfl

@[simp] theorem strings_filled : (filled text).strings = [text] := rfl

@[simp] theorem strings_markup (tag : Tag) : (markup tag).strings = [] := rfl

@[simp] theorem strings_anchor : (anchor link).strings = [] := rfl

@[simp] theorem strings_opening : (opening name).strings = [] := rfl

@[simp] theorem strings_closing : (closing name).strings = [] := rfl

@[simp] theorem strings_enclosed :
    (enclosed name inner).flatMap strings = inner.flatMap strings := by
  simp [enclosed]

@[simp] theorem tags_words : (words text).tags = [] := rfl

@[simp] theorem tags_filled : (filled text).tags = [] := rfl

@[simp] theorem tags_enclosed : (enclosed name inner).flatMap tags =
    ⟨name.toList, []⟩ :: (inner.flatMap tags ++ [⟨'/' :: name.toList, []⟩]) := by
  simp [enclosed, opening, closing, tags]

end Lemmas

/-- What joins rows of parts does not count if it has nothing of what is looked for. -/
theorem flatMap_intercalate {α : Type} {find : Part → List α} {joint : List Part}
    (none : joint.flatMap find = []) (rows : List (List Part)) :
    (joint.intercalate rows).flatMap find = rows.flatMap (List.flatMap find) := by
  induction rows with
  | nil => rfl
  | cons row rest ih =>
    cases rest with
    | nil => simp
    | cons next later =>
      rw [List.intercalate_cons_cons, List.flatMap_append, List.flatMap_append, none, ih,
        List.append_nil, ← List.flatMap_cons]

/-- What a part has of a kind is what its tokens have, if characters have nothing of the kind. -/
theorem flatMap_tokens {α : Type} {ofToken : Token → List α} {ofPart : Part → List α}
    (characters : ∀ c, ofToken (.character c) = []) (markup : ∀ tag, ofToken (.markup tag) =
      ofPart (.markup tag)) (words : ∀ text, ofPart (.words text) = [])
    (filled : ∀ text, ofPart (.filled text) = []) (parts : List Part) :
    (parts.flatMap tokens).flatMap ofToken = parts.flatMap ofPart := by
  have none (cs : List Char) : (cs.map Token.character).flatMap ofToken = [] := by
    rw [List.flatMap_map]
    exact List.flatMap_eq_nil_iff.2 fun c _ => characters c
  rw [List.flatMap_assoc]
  refine List.flatMap_congr fun part _ => ?_
  cases part with
  | markup tag => rw [tokens, List.flatMap_singleton, markup]
  | words text => rw [tokens, none, words]
  | filled text => rw [tokens, none, filled]

theorem stretches_characters (cs : List Char) (rest : List Token) :
    stretches (cs.map .character ++ rest) = (stretches rest).modifyHead (cs ++ ·) := by
  induction cs with
  | nil =>
    rw [List.map_nil, List.nil_append]
    cases stretches rest <;> rfl
  | cons c later ih =>
    rw [List.map_cons, List.cons_append, stretches, ih, List.modifyHead_modifyHead]
    rfl

theorem stretches_tokens (parts : List Part) :
    stretches (parts.flatMap tokens) = (texts parts).map escapedChars := by
  have filled (text : String) (later : List String) :
      (later.map escapedChars).modifyHead (escapedChars text ++ ·) =
        (later.modifyHead (text ++ ·)).map escapedChars := by
    cases later with
    | nil => rfl
    | cons first more => simp [Xml.escapedChars_append]
  induction parts with
  | nil => rfl
  | cons part rest ih =>
    cases part with
    | markup tag =>
      rw [List.flatMap_cons, tokens, List.singleton_append, stretches, ih, texts]
      rfl
    | words text | filled text =>
      rw [List.flatMap_cons, tokens, stretches_characters, ih, filled, texts]

end Part

/-- A reader finds these parts in a text, and stands outside of tags behind it. -/
def Spells (text : String) (parts : List Part) : Prop :=
  State.text.read text.toList = (.text, parts.flatMap Part.tokens)

namespace Spells

variable {text left right : String} {parts first second : List Part}

theorem of_eq (spells : Spells text parts) (same : parts = first) : Spells text first :=
  same ▸ spells

theorem append (one : Spells left first) (other : Spells right second) :
    Spells (left ++ right) (first ++ second) := by
  rw [Spells, String.toList_append, List.flatMap_append]
  exact State.read_append one other

theorem empty : Spells "" [] := rfl

theorem filled (text : String) : Spells (Xml.escaped text) [.filled text] := by
  rw [Spells, Xml.escaped, String.toList_ofList,
    State.read_text (Xml.not_mem_escapedChars text).1, List.flatMap_singleton, Part.tokens]

theorem words (plain : ∀ c ∈ text.toList, c ∉ Xml.special) : Spells text [.words text] := by
  have same := filled text
  rwa [Spells, Xml.escaped, String.toList_ofList, Xml.escapedChars_of_plain plain] at same

theorem join {α : Type} {items : List α} {chars : α → String} {written : α → List Part}
    (each : ∀ item ∈ items, Spells (chars item) (written item)) :
    Spells (String.join (items.map chars)) (items.flatMap written) := by
  induction items with
  | nil => exact empty
  | cons item rest ih =>
    rw [List.forall_mem_cons] at each
    rw [List.map_cons, String.join_cons, List.flatMap_cons]
    exact each.1.append (ih each.2)

theorem intercalate {α : Type} {joint : String} {between : List Part} {items : List α}
    {chars : α → String} {written : α → List Part} (joins : Spells joint between)
    (each : ∀ item ∈ items, Spells (chars item) (written item)) :
    Spells (joint.intercalate (items.map chars)) (between.intercalate (items.map written)) := by
  induction items with
  | nil => exact empty
  | cons item rest ih =>
    rw [List.forall_mem_cons] at each
    cases rest with
    | nil =>
      rw [List.map_singleton, List.map_singleton, String.intercalate_singleton,
        List.intercalate_singleton]
      exact each.1
    | cons next later =>
      have behind := ih each.2
      rw [List.map_cons, List.map_cons] at behind ⊢
      rw [List.map_cons, List.map_cons, String.intercalate_cons_cons, List.intercalate_cons_cons]
      exact ((each.1.append joins).append behind).of_eq (by simp)

/-- The start tag of an anchor. -/
theorem anchor (link : String) :
    Spells ("<a href=\"" ++ Xml.escaped link ++ "\">") [.anchor link] := by
  have opened : State.text.read "<a href=\"".toList =
      (.quoted ⟨['a'], []⟩ ['h', 'r', 'e', 'f'] '"' [], []) := rfl
  have closed : (State.quoted ⟨['a'], []⟩ ['h', 'r', 'e', 'f'] '"' ([] ++ escapedChars link)).read
      "\">".toList = (.text, [.markup ⟨['a'], [⟨['h', 'r', 'e', 'f'], escapedChars link⟩]⟩]) := by
    rw [show "\">".toList = ['"', '>'] by decide, State.read_cons, State.next_quote,
      State.read_cons, State.next_bracket]
    rfl
  have inside : (State.quoted ⟨['a'], []⟩ ['h', 'r', 'e', 'f'] '"' []).read (escapedChars link) = _ :=
    State.read_quoted (Xml.not_mem_escapedChars link).2.2
  have whole := State.read_append (State.read_append opened inside) closed
  have written : (Xml.escaped link).toList = escapedChars link := String.toList_ofList
  rw [Spells, String.toList_append, String.toList_append, written]
  exact whole

/-- The tags of a page are those of its parts. -/
theorem tags_eq (spells : Spells text parts) : tags text = parts.flatMap Part.tags := by
  rw [tags, spells]
  exact Part.flatMap_tokens (fun _ => rfl) (fun _ => rfl) (fun _ => rfl) (fun _ => rfl) parts

/-- The links of a page are those of its parts. -/
theorem links_eq (spells : Spells text parts) : links text = parts.flatMap Part.links := by
  rw [links, spells]
  exact Part.flatMap_tokens (fun _ => rfl) (fun _ => rfl) (fun _ => rfl) (fun _ => rfl) parts

/-- The texts of a page are those of its parts. -/
theorem texts_eq (spells : Spells text parts) : texts text = (Part.texts parts).map some := by
  rw [texts, spells, Part.stretches_tokens, List.map_map]
  exact List.map_congr_left fun text _ => unescaped?_escapedChars text

end Spells

end RelaxDoc.Html
