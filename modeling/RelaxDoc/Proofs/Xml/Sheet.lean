import RelaxDoc.Xml.Writer

/-! Sheets: elements that hold either a text or other elements. A sheet has a text without line breaks
between tags, and others that have some; this module says which texts write it. -/
namespace RelaxDoc.Xml

/-- A text that is a name of small letters, and not the one of declarations. -/
def isWord (text : String) : Bool :=
  text.toList ≠ [] && text.toList.all Char.isLower && text ≠ "xmlns"

/-- A name of small letters. -/
@[ext]
structure Word where
  text : String
  valid : isWord text = true
  deriving DecidableEq

namespace Word

theorem filled (word : Word) : word.text.toList ≠ [] := by
  have valid := word.valid
  simp only [isWord, Bool.and_eq_true, decide_eq_true_eq] at valid
  exact valid.1.1

theorem isLower_of_mem (word : Word) {c : Char} (mem : c ∈ word.text.toList) :
    c.isLower = true := by
  have valid := word.valid
  simp only [isWord, Bool.and_eq_true, List.all_eq_true] at valid
  exact valid.1.2 c mem

theorem ne_xmlns (word : Word) : word.text ≠ "xmlns" := by
  have valid := word.valid
  simp only [isWord, Bool.and_eq_true, decide_eq_true_eq] at valid
  exact valid.2

end Word

/-- What the tags of an element say: its name and its attributes, no two of one name. -/
@[ext]
structure Heading where
  name : Word
  fields : List (Word × String)
  distinct : (fields.map Prod.fst).Nodup

namespace Heading

/-- The attributes as they are given to be written. -/
def written (heading : Heading) : List Field :=
  heading.fields.map fun field => ⟨field.1.text, field.2⟩

/-- The tag in front of the content. -/
def opening (heading : Heading) : Markup := .startTag heading.name.text heading.written

/-- The tag behind the content. -/
def closing (heading : Heading) : Markup := .endTag heading.name.text

/-- The only tag, if there is no content. -/
def single (heading : Heading) : Markup := .emptyTag heading.name.text heading.written

end Heading

/-- An element that holds a text or nothing, or one that holds at least one other. -/
inductive Sheet where
  | leaf (heading : Heading) (text : Option String)
  | branch (heading : Heading) (first : Sheet) (rest : List Sheet)

/-- The tags of the element. -/
def Sheet.heading : Sheet → Heading
  | .leaf heading _ => heading
  | .branch heading _ _ => heading

/-- The element with these elements in it. -/
def Sheet.ofContent (heading : Heading) : List Sheet → Sheet
  | [] => .leaf heading none
  | first :: rest => .branch heading first rest

mutual

/-- The markup of a sheet. -/
def Sheet.markup : Sheet → List Markup
  | .leaf heading none => [heading.single]
  | .leaf heading (some text) => [heading.opening, .text text, heading.closing]
  | .branch heading first rest =>
    heading.opening :: (first.markup ++ markupOfAll rest) ++ [heading.closing]

/-- The markup of sheets one behind the other. -/
def markupOfAll : List Sheet → List Markup
  | [] => []
  | sheet :: rest => sheet.markup ++ markupOfAll rest

end

/-- The tags with other values of the attributes. -/
def Heading.map (f : String → String) (heading : Heading) : Heading where
  name := heading.name
  fields := heading.fields.map fun field => (field.1, f field.2)
  distinct := by
    rw [List.map_map]
    exact heading.distinct

mutual

/-- The element with other values of the attributes and other texts in elements. -/
def Sheet.map (f g : String → String) : Sheet → Sheet
  | .leaf heading text => .leaf (heading.map f) (text.map g)
  | .branch heading first rest => .branch (heading.map f) (first.map f g) (mapAll f g rest)

@[inherit_doc Sheet.map]
def mapAll (f g : String → String) : List Sheet → List Sheet
  | [] => []
  | sheet :: rest => sheet.map f g :: mapAll f g rest

end

/-- The values of the attributes have a property. -/
def Heading.Holds (p : String → Prop) (heading : Heading) : Prop := ∀ field ∈ heading.fields, p field.2

mutual

/-- The values of the attributes have one property, and the texts in elements another. -/
def Sheet.Holds (p q : String → Prop) : Sheet → Prop
  | .leaf heading none => heading.Holds p
  | .leaf heading (some text) => heading.Holds p ∧ q text
  | .branch heading first rest => heading.Holds p ∧ first.Holds p q ∧ HoldsAll p q rest

@[inherit_doc Sheet.Holds]
def HoldsAll (p q : String → Prop) : List Sheet → Prop
  | [] => True
  | sheet :: rest => sheet.Holds p q ∧ HoldsAll p q rest

end

theorem Heading.holds_map {f : String → String} {p : String → Prop} {heading : Heading} :
    (heading.map f).Holds p ↔ heading.Holds (p ∘ f) := List.forall_mem_map

mutual

theorem Sheet.holds_map {f g : String → String} {p q : String → Prop} (sheet : Sheet) :
    (sheet.map f g).Holds p q ↔ sheet.Holds (p ∘ f) (q ∘ g) := by
  match sheet with
  | .leaf heading none => simp only [Sheet.map, Option.map_none, Sheet.Holds, Heading.holds_map]
  | .leaf heading (some text) =>
    simp only [Sheet.map, Option.map_some, Sheet.Holds, Heading.holds_map, Function.comp_apply]
  | .branch heading first rest =>
    simp only [Sheet.map, Sheet.Holds, Heading.holds_map, first.holds_map, holdsAll_mapAll rest]

theorem holdsAll_mapAll {f g : String → String} {p q : String → Prop} (sheets : List Sheet) :
    HoldsAll p q (mapAll f g sheets) ↔ HoldsAll (p ∘ f) (q ∘ g) sheets := by
  match sheets with
  | [] => simp only [mapAll, HoldsAll]
  | sheet :: rest => simp only [mapAll, HoldsAll, sheet.holds_map, holdsAll_mapAll rest]

end

mutual

theorem Sheet.Holds.mono {p q p' q' : String → Prop} {sheet : Sheet} (holds : sheet.Holds p q)
    (values : ∀ value, p value → p' value) (texts : ∀ text, q text → q' text) : sheet.Holds p' q' := by
  match sheet with
  | .leaf heading none =>
    rw [Sheet.Holds] at holds ⊢
    exact fun field mem => values _ (holds field mem)
  | .leaf heading (some text) =>
    rw [Sheet.Holds] at holds ⊢
    exact ⟨fun field mem => values _ (holds.1 field mem), texts text holds.2⟩
  | .branch heading first rest =>
    rw [Sheet.Holds] at holds ⊢
    exact ⟨fun field mem => values _ (holds.1 field mem), Sheet.Holds.mono holds.2.1 values texts,
      HoldsAll.mono holds.2.2 values texts⟩

theorem HoldsAll.mono {p q p' q' : String → Prop} {sheets : List Sheet} (holds : HoldsAll p q sheets)
    (values : ∀ value, p value → p' value) (texts : ∀ text, q text → q' text) :
    HoldsAll p' q' sheets := by
  match sheets with
  | [] =>
    rw [HoldsAll]
    trivial
  | sheet :: rest =>
    rw [HoldsAll] at holds ⊢
    exact ⟨Sheet.Holds.mono holds.1 values texts, HoldsAll.mono holds.2 values texts⟩

end

mutual

theorem Sheet.map_map (f g f' g' : String → String) (sheet : Sheet) :
    (sheet.map f g).map f' g' = sheet.map (f' ∘ f) (g' ∘ g) := by
  have headings (heading : Heading) : (heading.map f).map f' = heading.map (f' ∘ f) := by
    simp [Heading.map, Function.comp_def]
  match sheet with
  | .leaf heading text => simp only [Sheet.map, headings, Option.map_map]
  | .branch heading first rest =>
    simp only [Sheet.map, headings, first.map_map, mapAll_mapAll f g f' g' rest]

theorem mapAll_mapAll (f g f' g' : String → String) (sheets : List Sheet) :
    mapAll f' g' (mapAll f g sheets) = mapAll (f' ∘ f) (g' ∘ g) sheets := by
  match sheets with
  | [] => simp only [mapAll]
  | sheet :: rest => simp only [mapAll, sheet.map_map, mapAll_mapAll f g f' g' rest]

end

/-- What may stand between two tags: nothing, or a line break and spaces. -/
def IsGap (cs : List Char) : Prop := cs = [] ∨ ∃ width, cs = '\n' :: List.replicate width ' '

mutual

/-- The texts that write a sheet. There may be gaps in front of each element that is in another one,
and in front of the end tag of that one; a text stands right between the tags of its element. -/
def Sheet.Writes : Sheet → List Char → Prop
  | .leaf heading none, cs => cs = heading.single.chars
  | .leaf heading (some text), cs =>
    cs = heading.opening.chars ++ escapedChars text ++ heading.closing.chars
  | .branch heading first rest, cs => ∃ lead head tail last, IsGap lead ∧ first.Writes head ∧
    WritesAll rest tail ∧ IsGap last ∧
      cs = heading.opening.chars ++ (lead ++ head ++ tail) ++ last ++ heading.closing.chars

/-- The texts that write sheets one behind the other, with gaps in front of each. -/
def WritesAll : List Sheet → List Char → Prop
  | [], cs => cs = []
  | sheet :: rest, cs => ∃ lead head tail, IsGap lead ∧ sheet.Writes head ∧ WritesAll rest tail ∧
    cs = lead ++ head ++ tail

end

theorem Sheet.writes_empty (heading : Heading) :
    (leaf heading none).Writes heading.single.chars := by
  rw [Writes]

theorem Sheet.writes_text (heading : Heading) (text : String) :
    (leaf heading (some text)).Writes
      (heading.opening.chars ++ escapedChars text ++ heading.closing.chars) := by
  rw [Writes]

theorem Sheet.writes_branch (heading : Heading) {first : Sheet} {rest : List Sheet}
    {lead head tail last : List Char} (front : IsGap lead) (here : first.Writes head)
    (behind : WritesAll rest tail) (back : IsGap last) : (branch heading first rest).Writes
      (heading.opening.chars ++ (lead ++ head ++ tail) ++ last ++ heading.closing.chars) := by
  rw [Writes]
  exact ⟨lead, head, tail, last, front, here, behind, back, rfl⟩

theorem writesAll_nil : WritesAll [] [] := by
  rw [WritesAll]

theorem writesAll_cons {sheet : Sheet} {rest : List Sheet} {lead head tail : List Char}
    (front : IsGap lead) (here : sheet.Writes head) (behind : WritesAll rest tail) :
    WritesAll (sheet :: rest) (lead ++ head ++ tail) := by
  rw [WritesAll]
  exact ⟨lead, head, tail, front, here, behind, rfl⟩

theorem isGap_nil : IsGap [] := .inl rfl

theorem isGap_break (width : Nat) : IsGap ('\n' :: List.replicate width ' ') := .inr ⟨width, rfl⟩

theorem markupOfAll_eq_flatMap (sheets : List Sheet) :
    markupOfAll sheets = sheets.flatMap Sheet.markup := by
  induction sheets with
  | nil => rfl
  | cons sheet rest ih => rw [markupOfAll, ih, List.flatMap_cons]

theorem Sheet.heading_ofContent (heading : Heading) (content : List Sheet) :
    (ofContent heading content).heading = heading := by
  cases content <;> rfl

theorem Sheet.markup_ofContent (heading : Heading) (content : List Sheet) :
    (ofContent heading content).markup =
      if content = [] then [heading.single]
      else heading.opening :: content.flatMap markup ++ [heading.closing] := by
  cases content with
  | nil => rfl
  | cons first rest => rw [ofContent, markup, markupOfAll_eq_flatMap]; rfl

end RelaxDoc.Xml
