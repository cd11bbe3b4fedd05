import Mathlib.Data.List.Induction
import RelaxDoc.Proofs.Xml.LegalSource
import RelaxDoc.Proofs.Xml.LineEnds

/-! Reading the tokens of a sheet. An element is added to what is read so far, with white space of
attribute values as spaces, and with the gaps as blank texts. -/
namespace RelaxDoc.Xml

open Scanner

/-- A text without carriage returns. -/
def NoReturn (text : String) : Prop := '\r' ∉ text.toList

/-- A text with white space as spaces, as attribute values are read. -/
def spacedText (text : String) : String := String.ofList (text.toList.map spaced)

/-- A text as a node, if there is any. -/
def textNodes (text : String) : List Node := if text = "" then [] else [.text text]

/-- An attribute in no namespace. -/
def attributeOf (field : Word × String) : Attribute := ⟨⟨none, field.1.text⟩, field.2⟩

/-- The tag of an element in no namespace. -/
def Heading.tag (heading : Heading) : Tag where
  name := ⟨none, heading.name.text⟩
  attributes := heading.fields.map attributeOf
  declarations := []

mutual

/-- The element as a node. -/
def Sheet.node : Sheet → Node
  | .leaf heading none => .element heading.tag []
  | .leaf heading (some text) => .element heading.tag (textNodes text)
  | .branch heading first rest => .element heading.tag (first.node :: nodesOf rest)

@[inherit_doc Sheet.node]
def nodesOf : List Sheet → List Node
  | [] => []
  | sheet :: rest => sheet.node :: nodesOf rest

end

theorem Heading.tag_map_eq_iff {f : String → String} {heading : Heading} :
    (heading.map f).tag = heading.tag ↔ heading.Holds fun value => f value = value := by
  have tags : (heading.map f).tag = heading.tag ↔
      heading.fields.map (fun field => attributeOf (field.1, f field.2)) =
        heading.fields.map attributeOf := by
    simp [Heading.tag, Heading.map, Function.comp_def]
  rw [tags, List.map_inj_left]
  simp only [attributeOf, Attribute.mk.injEq, true_and, Heading.Holds]

theorem textNodes_inj {one other : String} : textNodes one = textNodes other ↔ one = other := by
  by_cases empty : one = "" <;> by_cases empty' : other = "" <;> simp_all [textNodes, eq_comm]

mutual

/-- Other strings make another element, unless they are the same. -/
theorem Sheet.node_map_eq_iff {f g : String → String} (sheet : Sheet) :
    (sheet.map f g).node = sheet.node ↔
      sheet.Holds (fun value => f value = value) fun text => g text = text := by
  match sheet with
  | .leaf heading none => simp [Sheet.map, Sheet.node, Sheet.Holds, Heading.tag_map_eq_iff]
  | .leaf heading (some text) =>
    simp [Sheet.map, Sheet.node, Sheet.Holds, Heading.tag_map_eq_iff, textNodes_inj]
  | .branch heading first rest =>
    simp [Sheet.map, Sheet.node, Sheet.Holds, Heading.tag_map_eq_iff, first.node_map_eq_iff,
      nodesOf_mapAll_eq_iff rest]

theorem nodesOf_mapAll_eq_iff {f g : String → String} (sheets : List Sheet) :
    nodesOf (mapAll f g sheets) = nodesOf sheets ↔
      HoldsAll (fun value => f value = value) (fun text => g text = text) sheets := by
  match sheets with
  | [] => simp [mapAll, nodesOf, HoldsAll]
  | sheet :: rest =>
    simp [mapAll, nodesOf, HoldsAll, sheet.node_map_eq_iff, nodesOf_mapAll_eq_iff rest]

end

/-- An element. -/
def Node.isElement : Node → Bool
  | .element _ _ => true
  | _ => false

/-- A text of white space. -/
def Node.isBlank : Node → Bool
  | .text content => content.toList.all isSpace
  | _ => false

mutual

/-- The node without blank texts beside elements. -/
def Node.withoutGaps : Node → Node
  | .element tag children =>
    .element tag (if children.any Node.isElement then withoutBlanks children else children)
  | node => node

@[inherit_doc Node.withoutGaps]
def withoutBlanks : List Node → List Node
  | [] => []
  | node :: rest =>
    if node.isBlank then withoutBlanks rest else node.withoutGaps :: withoutBlanks rest

end

/-- Reads a token of a document without entities. -/
def readPlain : Progress → Token → Except Fault Progress :=
  readToken [] maxNesting (readTokens [] (maxNesting - 1))

/-- Where a root has begun, no namespace is declared, and nothing is left over. -/
structure Progress.Idle (p : Progress) : Prop where
  started : p.started = true
  scope : p.scope = []
  pending : p.pending = .none
  references : p.references = 0

/-- The tokens are read as the nodes. -/
def ReadAs (tokens : List Token) (nodes : List Node) : Prop :=
  ∀ p : Progress, p.Idle → tokens.foldlM readPlain p = .ok (nodes.foldl Progress.add p)

theorem Progress.Idle.add {p : Progress} (idle : p.Idle) (node : Node) : (p.add node).Idle := by
  obtain ⟨started, scope, pending, references⟩ := idle
  unfold Progress.add
  split
  · exact ⟨started, scope, pending, references⟩
  · rename_i innermost outer eq
    refine ⟨started, ?_, pending, references⟩
    simpa only [Progress.scope, eq] using scope

theorem Progress.Idle.foldl_add {p : Progress} (idle : p.Idle) (nodes : List Node) :
    (nodes.foldl Progress.add p).Idle := by
  induction nodes generalizing p with
  | nil => exact idle
  | cons node rest ih => exact ih (idle.add node)

theorem readAs_nil : ReadAs [] [] := fun _ _ => rfl

theorem ReadAs.append {one other : List Token} {nodes others : List Node} (first : ReadAs one nodes)
    (second : ReadAs other others) : ReadAs (one ++ other) (nodes ++ others) := by
  intro p idle
  rw [List.foldlM_append, first p idle, List.foldl_append]
  exact second _ (idle.foldl_add nodes)

theorem valueOf_escaped (inner : List Char → Nat → Except Fault (List Char × Nat)) {cs : List Char}
    (noReturn : '\r' ∉ cs) (count : Nat) :
    valueOf false [] inner (cs.map escapedPiece) count = .ok (cs.map spaced, count) := by
  induction cs with
  | nil => rfl
  | cons c rest ih =>
    simp only [List.mem_cons, not_or] at noReturn
    rw [List.map_cons, escapedPiece]
    split
    · rename_i mem
      have same : ∀ c ∈ special, spaced c = c := forall_mem_of_all (by decide)
      have kept := same c mem
      rw [valueOf, ih noReturn.2, List.map_cons, kept]
      rfl
    · have other : (c == '\r') = false := beq_false_of_ne (Ne.symm noReturn.1)
      rw [valueOf, ih noReturn.2]
      simp only [other, Bool.false_and]
      rfl

theorem expandValue_escaped {text : String} (noReturn : NoReturn text) (count : Nat) :
    expandValue [] maxNesting (escapedChars text) count = .ok ((spacedText text).toList, count) := by
  rw [maxNesting, expandValue, pieces_escapedChars, spacedText, String.toList_ofList]
  exact valueOf_escaped _ noReturn count

/-- An attribute as it is read. -/
def assignmentOf (field : Word × String) : Assignment := ⟨writtenWord field.1, spacedText field.2⟩

theorem assign_written {fields : List (Word × String)} (noReturn : ∀ field ∈ fields, NoReturn field.2)
    (count : Nat) :
    assign [] maxNesting (fields.map writtenField) count = .ok (fields.map assignmentOf, count) := by
  induction fields with
  | nil => rfl
  | cons field rest ih =>
    rw [List.map_cons, assign, writtenField, expandValue_escaped (noReturn _ List.mem_cons_self)]
    simp only [bind, Except.bind, ih fun other mem => noReturn other (List.mem_cons_of_mem _ mem),
      String.ofList_toList]
    rfl

theorem splitAssignments_words (fields : List (Word × String)) :
    splitAssignments (fields.map assignmentOf) [] = .ok ([], fields.map assignmentOf) := by
  induction fields with
  | nil => rfl
  | cons field rest ih =>
    have nothing : (assignmentOf field).declares = .ok .nothing := by
      simp [Assignment.declares, assignmentOf, writtenWord, field.1.ne_xmlns]
    rw [List.map_cons, splitAssignments, nothing]
    simp only [bind, Except.bind, ih]
    rfl

theorem expandAssignments_words {fields : List (Word × String)}
    (distinct : (fields.map Prod.fst).Nodup) (done : List Attribute)
    (apart : ∀ field ∈ fields, ∀ a ∈ done, a.name ≠ ⟨none, field.1.text⟩) :
    expandAssignments [] (fields.map assignmentOf) done =
      .ok (done ++ fields.map fun field => attributeOf (field.1, spacedText field.2)) := by
  induction fields generalizing done with
  | nil => rw [List.map_nil, expandAssignments, List.map_nil, List.append_nil]
  | cons field rest ih =>
    rw [List.map_cons, List.nodup_cons] at distinct
    have name : attributeName [] (assignmentOf field).name = .ok ⟨none, field.1.text⟩ := rfl
    have fresh : done.any (fun b => b.name = ⟨none, field.1.text⟩) = false := by
      simpa using apart field List.mem_cons_self
    have behind := ih distinct.2 (done ++ [attributeOf (field.1, spacedText field.2)]) ?_
    · rw [List.map_cons, expandAssignments, name]
      simp only [bind, Except.bind, fresh, Bool.false_eq_true, if_false]
      rw [List.map_cons, List.append_cons done (attributeOf _)]
      exact behind
    · intro other mem a inDone
      rcases List.mem_append.1 inDone with old | new
      · exact apart other (List.mem_cons_of_mem _ mem) a old
      · rw [List.mem_singleton.1 new]
        intro same
        have words : field.1 = other.1 := Word.ext (congrArg Name.localName same)
        exact distinct.1 (words ▸ List.mem_map_of_mem mem)

/-- The tag is read with its attributes, of which none declares a namespace. -/
theorem tag_words (heading : Heading) :
    (⟨[], heading.fields.map assignmentOf⟩ : Pending).tag [] (writtenWord heading.name) =
      .ok (heading.map spacedText).tag := by
  have attributes := expandAssignments_words heading.distinct [] (by simp)
  rw [Pending.tag, Pending.attributes, Scope.enter, List.append_nil, attributes]
  simp [Heading.tag, Heading.map, elementName, writtenWord, Scope.lookup]

theorem readPlain_tagToken {heading : Heading} (noReturn : heading.Holds NoReturn) {p : Progress}
    (idle : p.Idle) (ending : TagEnd) :
    readPlain p (tagToken heading ending) =
      p.begin (writtenWord heading.name) (heading.fields.map assignmentOf) ending := by
  have same : ({ p with references := 0 } : Progress) = p := by rw [← idle.references]
  rw [readPlain, tagToken, readToken, idle.references, assign_written noReturn]
  simp only [bind, Except.bind, same]

/-- The element that a start tag opens. -/
def opened (heading : Heading) : OpenElement where
  written := writtenWord heading.name
  tag := (heading.map spacedText).tag
  scope := []
  content := []

theorem begin_words (heading : Heading) {p : Progress} (idle : p.Idle) (ending : TagEnd)
    (whole : ending ≠ .cut) :
    p.begin (writtenWord heading.name) (heading.fields.map assignmentOf) ending =
      .ok (if ending = .closed then p.add (.element (heading.map spacedText).tag [])
        else { p with open? := opened heading :: p.open? }) := by
  have pending : Pending.none.add (heading.fields.map assignmentOf) =
      .ok ⟨[], heading.fields.map assignmentOf⟩ := by
    rw [Pending.add, Pending.none, splitAssignments_words]
    rfl
  have qualifier : checkQualifier (writtenWord heading.name) = .ok () := rfl
  obtain ⟨«open», finished, started, references, left⟩ := p
  obtain ⟨rfl, scope, rfl, rfl⟩ := idle
  rw [Progress.begin, qualifier, pending]
  simp only [bind, Except.bind, if_neg whole, scope, tag_words]
  split <;> rfl

theorem foldl_add_opened (heading : Heading) (p : Progress) (nodes : List Node) :
    nodes.foldl Progress.add { p with open? := opened heading :: p.open? } =
      { p with open? := { opened heading with content := nodes.reverse } :: p.open? } := by
  induction nodes using List.reverseRecOn with
  | nil => rfl
  | append_singleton nodes node ih =>
    rw [List.foldl_append, ih, List.reverse_append]
    rfl

theorem finish_opened (heading : Heading) {p : Progress} (idle : p.Idle) (nodes : List Node) :
    ({ p with open? := { opened heading with content := nodes.reverse } :: p.open? } : Progress).finish
      (writtenWord heading.name) = .ok (p.add (.element (heading.map spacedText).tag nodes)) := by
  obtain ⟨«open», finished, started, references, left⟩ := p
  obtain ⟨rfl, -, rfl, rfl⟩ := idle
  have nothing : Pending.none.attributes (opened heading).scope = .ok [] := rfl
  simp only [Progress.finish, nothing, bind, Except.bind]
  simp [opened]
  rfl

/-- An element is read as a node of what it holds. -/
theorem ReadAs.element {heading : Heading} (noReturn : heading.Holds NoReturn) {tokens : List Token}
    {nodes : List Node} (inside : ReadAs tokens nodes) :
    ReadAs (tagToken heading .opened :: tokens ++ [endToken heading])
      [.element (heading.map spacedText).tag nodes] := by
  intro p idle
  have idle' : ({ p with open? := opened heading :: p.open? } : Progress).Idle :=
    ⟨idle.started, rfl, idle.pending, idle.references⟩
  rw [List.cons_append, List.foldlM_cons, readPlain_tagToken noReturn idle,
    begin_words heading idle _ TagEnd.noConfusion]
  simp only [bind, Except.bind, List.foldlM_append, reduceCtorEq, if_false, inside _ idle',
    foldl_add_opened]
  exact (bind_pure _).trans (finish_opened heading idle nodes)

theorem readAs_single {heading : Heading} (noReturn : heading.Holds NoReturn) :
    ReadAs [tagToken heading .closed] [.element (heading.map spacedText).tag []] := by
  intro p idle
  rw [List.foldlM_cons, readPlain_tagToken noReturn idle,
    begin_words heading idle _ TagEnd.noConfusion]
  rfl

theorem appendText_of_ne {c : Char} (other : c ≠ '\r') (last : Bool) {before : List Char}
    (kept : before.head? ≠ some '\r') : appendText c last before = c :: before := by
  unfold appendText
  split
  · exact absurd rfl kept
  · simp [other]

theorem segments_escaped {cs before : List Char} (noReturn : '\r' ∉ cs)
    (kept : before.head? ≠ some '\r') (verbatim : Bool) :
    segments false verbatim before (cs.map escapedPiece) = flushed (cs.reverse ++ before) := by
  induction cs generalizing before verbatim with
  | nil => rw [List.map_nil, segments]; rfl
  | cons c rest ih =>
    simp only [List.mem_cons, not_or] at noReturn
    have other : c ≠ '\r' := Ne.symm noReturn.1
    have next (verbatim : Bool) : segments false verbatim (c :: before) (rest.map escapedPiece) =
        flushed ((c :: rest).reverse ++ before) := by
      have kept' : (c :: before).head? ≠ some '\r' := fun same => other (Option.some.inj same)
      rw [ih noReturn.2 kept', List.reverse_cons, List.append_assoc, List.singleton_append]
    rw [List.map_cons, escapedPiece]
    split
    · rw [segments]
      exact next true
    · rw [segments, appendText_of_ne other _ kept, next, ite_self]

theorem charactersOf_of_ne_nil {run : List Char} (filled : run ≠ []) :
    charactersOf run = [.characters run] := by
  cases run with
  | nil => exact absurd rfl filled
  | cons c rest => rfl

theorem flushed_reverse_of_ne_nil {cs : List Char} (filled : cs ≠ []) :
    flushed cs.reverse = [.text cs] := by
  unfold flushed
  split
  · rename_i eq
    exact absurd (List.reverse_eq_nil_iff.1 eq) filled
  · rw [List.reverse_reverse]

/-- Character data is read as a text. -/
theorem readAs_text {text : String} (noReturn : NoReturn text) :
    ReadAs (charactersOf (escapedChars text)) (textNodes text) := by
  by_cases empty : text = ""
  · subst empty
    exact readAs_nil
  · have filled : text.toList ≠ [] := fun eq => empty (String.toList_eq_nil_iff.1 eq)
    have escapes : escapedChars text ≠ [] := fun eq => empty (escapedChars_injective eq)
    intro p idle
    have segments : segments false false [] (text.toList.map escapedPiece) = [.text text.toList] := by
      rw [segments_escaped noReturn (by simp), List.append_nil, flushed_reverse_of_ne_nil filled]
    have nested : decide (maxNesting < maxNesting) = false := rfl
    rw [charactersOf_of_ne_nil escapes, textNodes, if_neg empty, List.foldlM_cons, readPlain, readToken,
      pieces_escapedChars, nested]
    simp only [bind, Except.bind, segments, List.foldlM_cons, readSegment, String.ofList_toList]
    rfl

/-- A gap is character data too, and blank. -/
theorem readAs_gap {gap : List Char} (isGap : IsGap gap) :
    ReadAs (charactersOf gap) (textNodes (String.ofList gap)) ∧
      withoutBlanks (textNodes (String.ofList gap)) = [] := by
  constructor
  · have noReturn : NoReturn (String.ofList gap) := by
      rw [NoReturn, String.toList_ofList]
      exact fun mem => absurd (isGap.eq_or_eq_of_mem _ mem) (by decide)
    have read := readAs_text noReturn
    rwa [isGap.escapedChars_eq] at read
  · have blank : (Node.text (String.ofList gap)).isBlank = true := by
      rw [Node.isBlank, String.toList_ofList, List.all_eq_true]
      intro c mem
      rcases isGap.eq_or_eq_of_mem c mem with rfl | rfl <;> decide
    unfold textNodes
    split
    · rfl
    · rw [withoutBlanks, if_pos blank]
      rfl

theorem withoutBlanks_append (one other : List Node) :
    withoutBlanks (one ++ other) = withoutBlanks one ++ withoutBlanks other := by
  induction one with
  | nil => rfl
  | cons node rest ih =>
    rw [List.cons_append, withoutBlanks, withoutBlanks, ih]
    split <;> rfl

theorem withoutBlanks_element (tag : Tag) (children : List Node) :
    withoutBlanks [.element tag children] = [(Node.element tag children).withoutGaps] := rfl

/-- An element that holds no other keeps its texts. -/
theorem withoutGaps_texts (tag : Tag) (text : String) :
    (Node.element tag (textNodes text)).withoutGaps = .element tag (textNodes text) := by
  rw [Node.withoutGaps, textNodes]
  split <;> rfl

mutual

/-- The tokens of a sheet are read as an element, which is the one of the sheet but for gaps. -/
theorem Sheet.HasTokens.exists_node {sheet : Sheet} {tokens : List Token}
    (has : sheet.HasTokens tokens) (noReturn : sheet.Holds NoReturn NoReturn) :
    ∃ tag children, ReadAs tokens [.element tag children] ∧
      (Node.element tag children).withoutGaps = (sheet.map spacedText id).node := by
  match sheet with
  | .leaf heading none =>
    rw [Sheet.HasTokens] at has
    rw [Sheet.Holds] at noReturn
    subst has
    exact ⟨_, _, readAs_single noReturn, rfl⟩
  | .leaf heading (some content) =>
    rw [Sheet.HasTokens] at has
    rw [Sheet.Holds] at noReturn
    subst has
    exact ⟨_, _, ReadAs.element noReturn.1 (readAs_text noReturn.2), withoutGaps_texts _ content⟩
  | .branch heading first rest =>
    rw [Sheet.HasTokens] at has
    rw [Sheet.Holds] at noReturn
    obtain ⟨lead, head, tail, last, front, here, behind, back, rfl⟩ := has
    obtain ⟨tag, children, firstRead, firstNode⟩ := Sheet.HasTokens.exists_node here noReturn.2.1
    obtain ⟨nodes, restRead, restNodes⟩ := HaveTokens.exists_nodes behind noReturn.2.2
    obtain ⟨leadRead, leadBlank⟩ := readAs_gap front
    obtain ⟨lastRead, lastBlank⟩ := readAs_gap back
    have inside := (leadRead.append firstRead).append (restRead.append lastRead)
    refine ⟨_, _, inside.element noReturn.1, ?_⟩
    rw [Node.withoutGaps, if_pos (by simp [Node.isElement])]
    simp only [withoutBlanks_append, withoutBlanks_element, leadBlank, lastBlank, firstNode, restNodes,
      List.nil_append, List.append_nil]
    rw [Sheet.map, Sheet.node]
    rfl

theorem HaveTokens.exists_nodes {sheets : List Sheet} {tokens : List Token}
    (have_ : HaveTokens sheets tokens) (noReturn : HoldsAll NoReturn NoReturn sheets) :
    ∃ nodes, ReadAs tokens nodes ∧ withoutBlanks nodes = nodesOf (mapAll spacedText id sheets) := by
  match sheets with
  | [] =>
    rw [HaveTokens] at have_
    subst have_
    exact ⟨[], readAs_nil, rfl⟩
  | sheet :: rest =>
    rw [HaveTokens] at have_
    rw [HoldsAll] at noReturn
    obtain ⟨lead, head, tail, front, here, behind, rfl⟩ := have_
    obtain ⟨tag, children, sheetRead, sheetNode⟩ := Sheet.HasTokens.exists_node here noReturn.1
    obtain ⟨nodes, restRead, restNodes⟩ := HaveTokens.exists_nodes behind noReturn.2
    obtain ⟨leadRead, leadBlank⟩ := readAs_gap front
    refine ⟨_, (leadRead.append sheetRead).append restRead, ?_⟩
    simp only [withoutBlanks_append, withoutBlanks_element, leadBlank, sheetNode, restNodes,
      List.nil_append]
    rw [mapAll, nodesOf]
    rfl

end

theorem Sheet.HasTokens.exists_cons {sheet : Sheet} {tokens : List Token}
    (has : sheet.HasTokens tokens) : ∃ heading ending rest, tokens = tagToken heading ending :: rest := by
  match sheet with
  | .leaf heading none =>
    rw [Sheet.HasTokens] at has
    exact ⟨_, _, _, has⟩
  | .leaf heading (some content) =>
    rw [Sheet.HasTokens] at has
    exact ⟨_, _, _, has⟩
  | .branch heading first rest =>
    rw [Sheet.HasTokens] at has
    obtain ⟨lead, head, tail, last, -, -, -, -, rfl⟩ := has
    exact ⟨_, _, _, rfl⟩

/-- The start of a document, with a start tag seen. -/
def Progress.begun : Progress := { Progress.start with started := true }

theorem Progress.idle_begun : Progress.begun.Idle := ⟨rfl, rfl, rfl, rfl⟩

/-- The document that a text writes, for a reader that first turns line ends into line feeds. -/
def Document.read (text : String) : Except Fault Document := Document.ofText (withLineEnds text)

theorem noReturn_withLineEnds (text : String) : NoReturn (withLineEnds text) := by
  rw [NoReturn, withLineEnds, String.toList_ofList]
  exact return_not_mem_lineEnds text.toList

/-- The strings of a sheet as they are read: line ends become line feeds, and white space in attribute
values becomes spaces. -/
def Sheet.received (sheet : Sheet) : Sheet :=
  sheet.map (spacedText ∘ withLineEnds) withLineEnds

/-- With line ends as line feeds, a text that writes a sheet, behind a declaration or not, writes the sheet
with such line ends in its strings. -/
theorem Sheet.Writes.exists_parts {sheet : Sheet} {declaration : Bool} {gap text : List Char}
    {whole : String} (writes : sheet.Writes text) (isGap : IsGap gap)
    (parts : whole.toList = (if declaration then Markup.declaration.chars ++ gap else []) ++ text) :
    ∃ text', (sheet.map withLineEnds withLineEnds).Writes text' ∧ (withLineEnds whole).toList =
      (if declaration then Markup.declaration.chars ++ gap else []) ++ text' := by
  obtain ⟨text', writes', ends⟩ := writes.exists_lineEnds
  refine ⟨text', writes', ?_⟩
  have whole_ends := ends []
  rw [List.append_nil, lineEnds, List.append_nil] at whole_ends
  rw [withLineEnds, String.toList_ofList, parts, lineEnds_append_of_not_mem, whole_ends]
  cases declaration with
  | false => simp
  | true =>
    rw [if_pos rfl, List.mem_append, not_or, chars_declaration]
    exact ⟨by decide, fun mem => absurd (isGap.eq_or_eq_of_mem _ mem) (by decide)⟩

/-- Line ends make no string legal, and none illegal. -/
theorem Sheet.holds_withLineEnds {sheet : Sheet} :
    (sheet.map withLineEnds withLineEnds).Holds LegalText LegalText ↔
      sheet.Holds LegalText LegalText := by
  have same : LegalText ∘ withLineEnds = LegalText := funext fun _ => propext legalText_withLineEnds
  rw [Sheet.holds_map, same]

/-- A text that writes a sheet of legal strings, behind a declaration or not, is read as the element of
the sheet, but for gaps. -/
theorem Sheet.Writes.exists_read {sheet : Sheet} {declaration : Bool} {gap text : List Char}
    {whole : String} (writes : sheet.Writes text) (legal : sheet.Holds LegalText LegalText)
    (isGap : IsGap gap)
    (parts : whole.toList = (if declaration then Markup.declaration.chars ++ gap else []) ++ text) :
    ∃ document, Document.read whole = .ok document ∧
      document.toNode.withoutGaps = sheet.received.node := by
  obtain ⟨text', writes', parts'⟩ := writes.exists_parts isGap parts
  have noReturn : (sheet.map withLineEnds withLineEnds).Holds NoReturn NoReturn :=
    sheet.holds_map.2 (legal.mono (fun value _ => noReturn_withLineEnds value)
      fun text _ => noReturn_withLineEnds text)
  obtain ⟨tokens, has, element⟩ := writes'.exists_tokens (Sheet.holds_withLineEnds.2 legal)
  obtain ⟨tag, children, read, node⟩ := has.exists_node noReturn
  rw [Sheet.map_map, Function.id_comp] at node
  have begins := writes'.beginsTag []
  rw [List.append_nil] at begins
  have outline := ofText_eq_ok isGap begins element parts'
  have progress : readTokens [] maxNesting tokens .start =
      .ok (Progress.begun.add (.element tag children)) := by
    refine Eq.trans ?_ (read _ Progress.idle_begun)
    -- The first token is a tag, in front of which it does not matter whether there was one.
    obtain ⟨heading, ending, rest, rfl⟩ := has.exists_cons
    rfl
  refine ⟨⟨tag, children⟩, ?_, node⟩
  rw [Document.read, Document.ofText, outline]
  simp only [bind, Except.bind, progress]
  rfl

/-- A text that writes a sheet, behind a declaration or not, can be read exactly if the strings of the
sheet are legal. -/
theorem Sheet.Writes.exists_read_iff {sheet : Sheet} {declaration : Bool} {gap text : List Char}
    {whole : String} (writes : sheet.Writes text) (isGap : IsGap gap)
    (parts : whole.toList = (if declaration then Markup.declaration.chars ++ gap else []) ++ text) :
    (∃ document, Document.read whole = .ok document) ↔ sheet.Holds LegalText LegalText := by
  constructor
  · rintro ⟨document, read⟩
    obtain ⟨outline, outlined, -⟩ := exists_of_bind read
    obtain ⟨text', writes', parts'⟩ := writes.exists_parts isGap parts
    have begins := writes'.beginsTag []
    rw [List.append_nil] at begins
    exact Sheet.holds_withLineEnds.1
      (writes'.holds_of_isLegal (isLegal_of_ofText isGap begins parts' outlined))
  · intro legal
    obtain ⟨document, read, -⟩ := writes.exists_read legal isGap parts
    exact ⟨document, read⟩

end RelaxDoc.Xml
