import Mathlib.Data.List.Basic
import RelaxDoc.Diagram.Dot
import RelaxDoc.Proofs.Text.Parts

/-! Reading Graphviz texts. The lines of a text can be told apart because no quoted text holds a line
feed, and the parts of a line because a quoted text ends at the first quotation mark that no backslash
escapes. -/
namespace RelaxDoc.Dot

section Labels

/-- A text with each occurrence of a character replaced. -/
def replaced (mark : Char) (replacement cs : List Char) : List Char :=
  cs.flatMap fun c => if c = mark then replacement else [c]

/-- A label as it stands between quotation marks: first the backslashes are replaced, then the quotation
marks, then the line feeds. -/
def escaped (label : String) : List Char :=
  replaced '\n' ['\\', 'n'] (replaced '"' ['\\', '"'] (replaced '\\' ['\\', '\\'] label.toList))

/-- What a character behind a backslash stands for. -/
def meaning? : Char → Option Char
  | '\\' => some '\\'
  | '"' => some '"'
  | 'n' => some '\n'
  | _ => none

/-- A text up to the first quotation mark that is not escaped, without its escapes, and what stands from
there on. A line feed is not allowed, nor a backslash in front of another character. -/
def unescaped? : List Char → Option (List Char × List Char)
  | [] => some ([], [])
  | '"' :: rest => some ([], '"' :: rest)
  | '\n' :: _ => none
  | ['\\'] => none
  | '\\' :: c :: rest => do
    let first ← meaning? c
    let (more, behind) ← unescaped? rest
    return (first :: more, behind)
  | c :: rest => do
    let (more, behind) ← unescaped? rest
    return (c :: more, behind)

/-- The backslashes at the end of a text. -/
def endingBackslashes (cs : List Char) : Nat := (cs.reverse.takeWhile (· = '\\')).length

/-- Each quotation mark in a text is escaped: it stands behind an odd number of backslashes. -/
def QuotesEscaped (cs : List Char) : Prop :=
  ∀ before after, cs = before ++ '"' :: after → endingBackslashes before % 2 = 1

variable {c : Char}

theorem mem_specials (special : c ∈ ['\\', '"', '\n']) : c = '\\' ∨ c = '"' ∨ c = '\n' := by
  simpa using special

/-- A character stands in a label behind a backslash, as itself or as a letter, or it stands as it is. -/
theorem escapedChar_cases (c : Char) :
    (∃ mark, escapedChar c = ['\\', mark] ∧ meaning? mark = some c ∧ mark ≠ '\n') ∨
      escapedChar c = [c] ∧ c ∉ ['\\', '"', '\n'] := by
  by_cases special : c ∈ ['\\', '"', '\n']
  · left
    rcases mem_specials special with rfl | rfl | rfl
    · exact ⟨'\\', rfl, rfl, by decide⟩
    · exact ⟨'"', rfl, rfl, by decide⟩
    · exact ⟨'n', rfl, rfl, by decide⟩
  · refine .inr ⟨?_, special⟩
    simp only [List.mem_cons, List.not_mem_nil, or_false, not_or] at special
    rw [escapedChar, if_neg special.2.2, if_neg (not_or.2 ⟨special.2.1, special.1⟩)]

theorem replaced_cons (mark : Char) (replacement : List Char) (c : Char) (rest : List Char) :
    replaced mark replacement (c :: rest) =
      (if c = mark then replacement else [c]) ++ replaced mark replacement rest := rfl

theorem replaced_append (mark : Char) (replacement one other : List Char) :
    replaced mark replacement (one ++ other) =
      replaced mark replacement one ++ replaced mark replacement other := List.flatMap_append

/-- The replacements one after the other do to each character what they do to it alone: what the earlier
ones have put in, the later ones leave. -/
theorem escaped_eq (label : String) : escaped label = label.toList.flatMap escapedChar := by
  rw [escaped]
  induction label.toList with
  | nil => rfl
  | cons c rest ih =>
    rw [replaced_cons, replaced_append, replaced_append, ih, List.flatMap_cons]
    congr 1
    by_cases special : c ∈ ['\\', '"', '\n']
    · rcases mem_specials special with rfl | rfl | rfl <;> rfl
    · simp only [List.mem_cons, List.not_mem_nil, or_false, not_or] at special
      simp [replaced, escapedChar, special]

theorem quoted_eq (label : String) : quoted label = '"' :: escaped label ++ ['"'] := by
  rw [quoted, escaped_eq]

theorem lineFeed_not_mem_escaped (label : String) : '\n' ∉ escaped label := by
  rw [escaped_eq]
  intro member
  obtain ⟨c, -, among⟩ := List.mem_flatMap.1 member
  rcases escapedChar_cases c with ⟨mark, pair, -, other⟩ | ⟨same, plain⟩
  · rw [pair] at among
    simp [other.symm] at among
  · rw [same, List.mem_singleton] at among
    subst among
    exact plain (by decide)

/-- Backslashes at the end of a text go on in front of it only if it has nothing but backslashes. -/
theorem endingBackslashes_append (before cs : List Char) : endingBackslashes (before ++ cs) =
    if endingBackslashes cs = cs.length then cs.length + endingBackslashes before
    else endingBackslashes cs := by
  simp only [endingBackslashes, List.reverse_append, List.takeWhile_append, List.length_reverse]
  rw [apply_ite List.length, List.length_append, List.length_reverse]
  congr

theorem endingBackslashes_append_mod {before : List Char} (even : endingBackslashes before % 2 = 0)
    (cs : List Char) : endingBackslashes (before ++ cs) % 2 = endingBackslashes cs % 2 := by
  rw [endingBackslashes_append]
  split <;> omega

theorem endingBackslashes_escapedChar (c : Char) : endingBackslashes (escapedChar c) % 2 = 0 := by
  rcases escapedChar_cases c with ⟨mark, pair, -⟩ | ⟨same, plain⟩
  · rw [pair]
    by_cases backslash : mark = '\\'
    · rw [backslash]
      rfl
    · simp [endingBackslashes, backslash]
  · have other : c ≠ '\\' := fun backslash => plain (by simp [backslash])
    simp [same, endingBackslashes, other]

/-- The only quotation mark in what stands for a character is the one behind its backslash. -/
theorem endingBackslashes_of_quote {before others : List Char}
    (whole : escapedChar c = before ++ '"' :: others) : endingBackslashes before % 2 = 1 := by
  rcases escapedChar_cases c with ⟨mark, pair, -⟩ | ⟨same, plain⟩
  · rw [pair] at whole
    rcases before with _ | ⟨first, _ | ⟨second, more⟩⟩
    · simp at whole
    · obtain ⟨rfl, -⟩ := List.cons.inj whole
      rfl
    · simp at whole
  · have quote : '"' ∈ escapedChar c := by
      rw [whole]
      exact List.mem_append_right _ (List.mem_cons_self ..)
    rw [same, List.mem_singleton] at quote
    subst quote
    exact absurd (by decide) plain

theorem quotesEscaped_escaped (label : String) : QuotesEscaped (escaped label) := by
  rw [escaped_eq]
  induction label.toList with
  | nil => exact fun before after split => absurd (congrArg List.length split) (by simp)
  | cons c rest ih =>
    intro before after split
    rw [List.flatMap_cons] at split
    -- A quotation mark stands in what `c` has become or behind it.
    rcases List.append_eq_append_iff.1 split with ⟨more, rfl, behind⟩ | ⟨inside, whole, behind⟩
    · rw [endingBackslashes_append_mod (endingBackslashes_escapedChar c)]
      exact ih more after behind
    · cases inside with
      | nil => exact absurd (ih [] after behind.symm) (by decide)
      | cons quote others =>
        obtain ⟨rfl, -⟩ := List.cons.inj behind
        exact endingBackslashes_of_quote whole

theorem unescaped?_plain (plain : c ∉ ['\\', '"', '\n']) (rest : List Char) :
    unescaped? (c :: rest) = (unescaped? rest).map fun (more, behind) => (c :: more, behind) := by
  simp only [List.mem_cons, List.not_mem_nil, or_false, not_or] at plain
  obtain ⟨backslash, quote, lineFeed⟩ := plain
  rw [unescaped?]
  · cases unescaped? rest <;> rfl
  · exact quote
  · exact lineFeed
  · exact fun same => absurd same backslash
  · exact fun _ _ same => absurd same backslash

theorem unescaped?_pair {mark : Char} (means : meaning? mark = some c) (rest : List Char) :
    unescaped? ('\\' :: mark :: rest) =
      (unescaped? rest).map fun (more, behind) => (c :: more, behind) := by
  rw [unescaped?, means]
  cases unescaped? rest <;> rfl

/-- Undoing the escapes gives a label back, whatever ends it. -/
theorem unescaped?_append (label : String) {rest : List Char} (ends : unescaped? rest = some ([], rest)) :
    unescaped? (escaped label ++ rest) = some (label.toList, rest) := by
  rw [escaped_eq]
  induction label.toList with
  | nil => exact ends
  | cons c more ih =>
    rw [List.flatMap_cons, List.append_assoc]
    rcases escapedChar_cases c with ⟨mark, pair, means, -⟩ | ⟨same, plain⟩
    · rw [pair, List.cons_append, List.singleton_append, unescaped?_pair means, ih]
      rfl
    · rw [same, List.singleton_append, unescaped?_plain plain, ih]
      rfl

theorem unescaped?_escaped (label : String) : unescaped? (escaped label) = some (label.toList, []) := by
  have read := @unescaped?_append label [] rfl
  rwa [List.append_nil] at read

end Labels

section Lines

/-- What a text says about the look of a node. -/
structure Look where
  label : String
  shape : String
  outline : Option String
  fill : Option String
  deriving DecidableEq, Repr

/-- What a text says: a title, nodes with their numbers, and edges between numbers. -/
structure Picture where
  title : String
  nodes : List (Nat × Look)
  edges : List (Nat × Nat)
  deriving DecidableEq, Repr

/-- The look of a drawn node. -/
def look (node : DrawnNode) : Look :=
  ⟨node.label, node.style.shape, node.style.outline, node.style.fill⟩

/-- The picture of a diagram with a title. -/
def picture (title : String) (diagram : Diagram) : Picture :=
  ⟨title, diagram.nodes.zipIdx.map fun (node, index) => (index, look node), diagram.edges⟩

/-- What stands behind a mark that a text begins with. -/
def behind? (mark : String) (cs : List Char) : Option (List Char) := cs.dropPrefix? mark.toList

/-- The label in the quotation marks that a text begins with, and what stands behind them. -/
def label? (cs : List Char) : Option (String × List Char) := do
  let rest ← behind? "\"" cs
  let (label, rest) ← unescaped? rest
  let rest ← behind? "\"" rest
  return (String.ofList label, rest)

/-- The number of the node that a text begins with the name of, and what stands behind it. -/
def number? (cs : List Char) : Option (Nat × List Char) := do
  let rest ← behind? "node" cs
  let digits := rest.takeWhile Char.isDigit
  if digits = [] then none
  else return (Nat.ofDigitChars 10 digits 0, rest.dropWhile Char.isDigit)

/-- A further attribute, if a text begins with it, and what stands behind it. -/
def field? (name : String) (cs : List Char) : Option (Option String × List Char) :=
  match behind? (", " ++ name ++ "=") cs with
  | some rest => do
    let (value, rest) ← label? rest
    return (some value, rest)
  | none => some (none, cs)

/-- The title in a first line. -/
def title? (line : List Char) : Option String := do
  let rest ← behind? "digraph " line
  let (title, rest) ← label? rest
  let [] ← behind? " \x7b" rest | none
  return title

/-- The node that a line is about. -/
def node? (line : List Char) : Option (Nat × Look) := do
  let rest ← behind? "  " line
  let (index, rest) ← number? rest
  let rest ← behind? " [label=" rest
  let (label, rest) ← label? rest
  let rest ← behind? ", shape=" rest
  let (shape, rest) ← label? rest
  let (outline, rest) ← field? "style" rest
  let (fill, rest) ← field? "fillcolor" rest
  let [] ← behind? "];" rest | none
  return (index, ⟨label, shape, outline, fill⟩)

/-- The edge that a line is about. -/
def edge? (line : List Char) : Option (Nat × Nat) := do
  let rest ← behind? "  " line
  let (source, rest) ← number? rest
  let rest ← behind? " -> " rest
  let (target, rest) ← number? rest
  let [] ← behind? ";" rest | none
  return (source, target)

/-- The picture that a text describes, line by line. -/
def read? (text : String) : Option Picture :=
  match Text.split '\n' text.toList with
  | [] => none
  | first :: others => do
    let title ← title? first
    return ⟨title, others.filterMap node?, others.filterMap edge?⟩

theorem behind?_append (mark : String) (rest : List Char) :
    behind? mark (mark.toList ++ rest) = some rest :=
  List.dropPrefix?_append_of_beq rest (beq_self_eq_true _)

theorem behind?_self (mark : String) : behind? mark mark.toList = some [] := by
  have begins := behind?_append mark []
  rwa [List.append_nil] at begins

theorem label?_quoted (label : String) (rest : List Char) :
    label? (quoted label ++ rest) = some (label, rest) := by
  have begins : behind? "\"" (quoted label ++ rest) = some (escaped label ++ '"' :: rest) := by
    rw [quoted_eq, List.append_assoc]
    exact behind?_append "\"" _
  have read : unescaped? (escaped label ++ '"' :: rest) = some (label.toList, '"' :: rest) :=
    unescaped?_append label rfl
  have ends : behind? "\"" ('"' :: rest) = some rest := behind?_append "\"" rest
  simp [label?, begins, read, ends]

theorem number?_nodeName (n : Nat) {rest : List Char} (ends : ∀ c ∈ rest.head?, c.isDigit = false) :
    number? (nodeName n ++ rest) = some (n, rest) := by
  have digits : ∀ c ∈ Nat.toDigits 10 n, c.isDigit = true :=
    fun c member => Nat.isDigit_of_mem_toDigits (by decide) (by decide) member
  have begins : behind? "node" (nodeName n ++ rest) = some (Nat.toDigits 10 n ++ rest) := by
    rw [nodeName, List.append_assoc]
    exact behind?_append "node" _
  have none : rest.takeWhile Char.isDigit = [] ∧ rest.dropWhile Char.isDigit = rest := by
    cases rest with
    | nil => exact ⟨rfl, rfl⟩
    | cons c more =>
      have other : ¬ c.isDigit = true := by simpa using ends c rfl
      exact ⟨List.takeWhile_cons_of_neg other, List.dropWhile_cons_of_neg other⟩
  have taken : (Nat.toDigits 10 n ++ rest).takeWhile Char.isDigit = Nat.toDigits 10 n := by
    rw [List.takeWhile_append_of_pos digits, none.1, List.append_nil]
  have dropped : (Nat.toDigits 10 n ++ rest).dropWhile Char.isDigit = rest := by
    rw [List.dropWhile_append_of_pos digits, none.2]
  unfold number?
  rw [begins]
  simp only [Option.bind_eq_bind, Option.bind_some, taken, dropped, Nat.ofDigitChars_ten_toDigits]
  rw [if_neg Nat.toDigits_ne_nil]
  rfl

theorem field?_furtherField (name : String) (value : Option String) {rest : List Char}
    (other : behind? (", " ++ name ++ "=") rest = none) :
    field? name (furtherField name value ++ rest) = some (value, rest) := by
  cases value with
  | none => rw [furtherField, List.nil_append, field?, other]
  | some value =>
    have begins : behind? (", " ++ name ++ "=") (furtherField name (some value) ++ rest) =
        some (quoted value ++ rest) := by
      have same : furtherField name (some value) ++ rest =
          (", " ++ name ++ "=").toList ++ (quoted value ++ rest) := by
        simp [furtherField]
      rw [same, behind?_append]
    rw [field?, begins]
    simp only [label?_quoted]
    rfl

theorem title?_titleLine (title : String) : title? (titleLine title) = some title := by
  have begins : behind? "digraph " (titleLine title) = some (quoted title ++ " \x7b".toList) := by
    unfold titleLine
    rw [List.append_assoc, behind?_append]
  simp only [title?, begins, label?_quoted, behind?_self, Option.bind_eq_bind, Option.bind_some]
  rfl

theorem number?_label (n : Nat) (rest : List Char) :
    number? (nodeName n ++ (" [label=".toList ++ rest)) = some (n, " [label=".toList ++ rest) :=
  number?_nodeName n fun _ first => Option.some.inj first ▸ rfl

theorem number?_arrow (n : Nat) (rest : List Char) :
    number? (nodeName n ++ (" -> ".toList ++ rest)) = some (n, " -> ".toList ++ rest) :=
  number?_nodeName n fun _ first => Option.some.inj first ▸ rfl

theorem number?_end (n : Nat) : number? (nodeName n ++ ";".toList) = some (n, ";".toList) :=
  number?_nodeName n fun _ first => Option.some.inj first ▸ rfl

theorem node?_nodeLine (index : Nat) (node : DrawnNode) :
    node? (nodeLine index node) = some (index, look node) := by
  have outline : behind? ", style=" (furtherField "fillcolor" node.style.fill ++ "];".toList) = none := by
    cases node.style.fill <;> rfl
  have fill : behind? ", fillcolor=" "];".toList = none := rfl
  unfold nodeLine
  simp only [node?, List.append_assoc, behind?_append, Option.bind_eq_bind,
    Option.bind_some, label?_quoted, number?_label]
  rw [field?_furtherField "style" _ outline]
  simp only [Option.bind_some]
  rw [field?_furtherField "fillcolor" _ fill]
  simp only [Option.bind_some, behind?_self]
  rfl

theorem edge?_edgeLine (edge : Nat × Nat) : edge? (edgeLine edge) = some edge := by
  unfold edgeLine
  simp only [edge?, List.append_assoc, behind?_append, Option.bind_eq_bind,
    Option.bind_some, number?_arrow, number?_end, behind?_self]
  rfl

theorem node?_edgeLine (edge : Nat × Nat) : node? (edgeLine edge) = none := by
  unfold edgeLine
  simp only [node?, List.append_assoc, behind?_append, Option.bind_eq_bind,
    Option.bind_some, number?_arrow]
  rfl

theorem edge?_nodeLine (index : Nat) (node : DrawnNode) : edge? (nodeLine index node) = none := by
  unfold nodeLine
  simp only [edge?, List.append_assoc, behind?_append, Option.bind_eq_bind,
    Option.bind_some, number?_label]
  rfl

theorem lineFeed_not_mem_quoted (label : String) : '\n' ∉ quoted label := by
  rw [quoted_eq]
  simp [lineFeed_not_mem_escaped]

theorem lineFeed_not_mem_nodeName (n : Nat) : '\n' ∉ nodeName n := by
  intro member
  rcases List.mem_append.1 member with word | digit
  · exact absurd word (by decide)
  · exact absurd (Nat.isDigit_of_mem_toDigits (by decide) (by decide) digit) (by decide)

theorem lineFeed_not_mem_furtherField {name : String} (plain : '\n' ∉ name.toList)
    (value : Option String) : '\n' ∉ furtherField name value := by
  cases value with
  | none => exact List.not_mem_nil
  | some value => simp [furtherField, plain, lineFeed_not_mem_quoted]

theorem lineFeed_not_mem_lines {title : String} {diagram : Diagram} {line : List Char}
    (member : line ∈ lines title diagram) : '\n' ∉ line := by
  simp only [lines, List.cons_append, List.mem_cons, List.mem_append, List.mem_map, List.not_mem_nil,
    or_false] at member
  rcases member with rfl | (⟨⟨node, index⟩, -, rfl⟩ | ⟨edge, -, rfl⟩) | rfl
  · unfold titleLine
    simp [lineFeed_not_mem_quoted]
  · unfold nodeLine
    simp [lineFeed_not_mem_quoted, lineFeed_not_mem_nodeName, lineFeed_not_mem_furtherField]
  · unfold edgeLine
    simp [lineFeed_not_mem_nodeName]
  · decide

theorem split_flatMap {lines : List (List Char)} (clean : ∀ line ∈ lines, '\n' ∉ line) :
    Text.split '\n' (lines.flatMap (· ++ ['\n'])) = lines ++ [[]] := by
  induction lines with
  | nil => rfl
  | cons line rest ih =>
    rw [List.flatMap_cons, List.append_assoc, List.singleton_append,
      Text.split_append (clean line (List.mem_cons_self ..)),
      ih fun other member => clean other (List.mem_cons_of_mem _ member)]
    rfl

theorem split_text (title : String) (diagram : Diagram) :
    Text.split '\n' (text title diagram).toList = lines title diagram ++ [[]] := by
  rw [text, String.toList_ofList]
  exact split_flatMap fun _ member => lineFeed_not_mem_lines member

theorem filterMap_of_some {α β γ : Type} {write : α → β} {read? : β → Option γ} {value : α → γ}
    (reads : ∀ a, read? (write a) = some (value a)) (items : List α) :
    (items.map write).filterMap read? = items.map value := by
  rw [List.filterMap_map, ← List.filterMap_eq_map]
  exact List.filterMap_congr fun a _ => reads a

theorem filterMap_of_none {α β γ : Type} {write : α → β} {read? : β → Option γ}
    (skips : ∀ a, read? (write a) = none) (items : List α) :
    (items.map write).filterMap read? = [] := by
  rw [List.filterMap_map, List.filterMap_eq_nil_iff]
  exact fun a _ => skips a

theorem read?_text (title : String) (diagram : Diagram) :
    read? (text title diagram) = some (picture title diagram) := by
  have split : Text.split '\n' (text title diagram).toList = titleLine title ::
      (diagram.nodes.zipIdx.map (fun (node, index) => nodeLine index node) ++
        (diagram.edges.map edgeLine ++ ["\x7d".toList, []])) := by
    rw [split_text, lines]
    simp only [List.cons_append, List.append_assoc, List.nil_append]
  have ends : ["\x7d".toList, []].filterMap node? = [] ∧ ["\x7d".toList, []].filterMap edge? = [] :=
    ⟨rfl, rfl⟩
  have nodes := filterMap_of_some (fun (entry : DrawnNode × Nat) => node?_nodeLine entry.2 entry.1)
    diagram.nodes.zipIdx
  have none := filterMap_of_none (fun (entry : DrawnNode × Nat) => edge?_nodeLine entry.2 entry.1)
    diagram.nodes.zipIdx
  rw [read?, split]
  simp only [title?_titleLine, List.filterMap_append, nodes, none, ends, List.append_nil,
    List.nil_append, filterMap_of_none node?_edgeLine, filterMap_of_some edge?_edgeLine, List.map_id']
  rfl

theorem nodeLine_congr {one other : DrawnNode} (same : look one = look other) (index : Nat) :
    nodeLine index one = nodeLine index other := by
  obtain ⟨label, shape, outline, fill⟩ := Look.mk.inj same
  unfold nodeLine
  rw [label, shape, outline, fill]

theorem nodeLines_congr {nodes others : List DrawnNode} (same : nodes.map look = others.map look)
    (start : Nat) : (nodes.zipIdx start).map (fun (node, index) => nodeLine index node) =
      (others.zipIdx start).map fun (node, index) => nodeLine index node := by
  induction nodes generalizing others start with
  | nil => rw [List.map_eq_nil_iff.1 same.symm]
  | cons node rest ih =>
    cases others with
    | nil => cases same
    | cons other further =>
      obtain ⟨here, behind⟩ := List.cons.inj same
      simp only [List.zipIdx_cons, List.map_cons, nodeLine_congr here, ih behind]

/-- The looks of the nodes of a picture of a diagram. -/
theorem looks_picture (title : String) (diagram : Diagram) :
    (picture title diagram).nodes.map Prod.snd = diagram.nodes.map look := by
  calc (picture title diagram).nodes.map Prod.snd
      = diagram.nodes.zipIdx.map (look ∘ Prod.fst) := List.map_map
    _ = (diagram.nodes.zipIdx.map Prod.fst).map look := List.map_map.symm
    _ = diagram.nodes.map look := by rw [List.zipIdx_map_fst]

theorem text_eq_iff {title title' : String} {diagram diagram' : Diagram} :
    text title diagram = text title' diagram' ↔ title = title' ∧
      diagram.nodes.map look = diagram'.nodes.map look ∧ diagram.edges = diagram'.edges := by
  constructor
  · intro same
    have pictures : picture title diagram = picture title' diagram' := by
      apply Option.some.inj
      rw [← read?_text, ← read?_text, same]
    refine ⟨congrArg Picture.title pictures, ?_, congrArg Picture.edges pictures⟩
    rw [← looks_picture title, ← looks_picture title', pictures]
  · rintro ⟨rfl, nodes, edges⟩
    rw [text, text, chars, chars, lines, lines, nodeLines_congr nodes 0, edges]

/-- Everything that a text shows of a diagram is read from it: the title, the nodes with label, shape,
outline and fill colour, and the edges. A label stands in quotation marks with its escapes, which give
it back when they are undone; no line feed stands in it, and no quotation mark that is not escaped. So
two texts are the same only if they show the same. -/
theorem text_decodable (title : String) (diagram : Diagram) :
    read? (text title diagram) = some (picture title diagram) ∧
    (∀ label, quoted label = '"' :: escaped label ++ ['"'] ∧
      unescaped? (escaped label) = some (label.toList, []) ∧
      '\n' ∉ escaped label ∧ QuotesEscaped (escaped label)) ∧
    ∀ title' diagram', text title diagram = text title' diagram' ↔ title = title' ∧
      diagram.nodes.map look = diagram'.nodes.map look ∧ diagram.edges = diagram'.edges :=
  ⟨read?_text title diagram,
    fun label => ⟨quoted_eq label, unescaped?_escaped label, lineFeed_not_mem_escaped label,
      quotesEscaped_escaped label⟩,
    fun _ _ => text_eq_iff⟩

end Lines

end RelaxDoc.Dot
