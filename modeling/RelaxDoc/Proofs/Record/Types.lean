import RelaxDoc.Proofs.Search.Gathering
import RelaxDoc.Record.Type

/-! The types of attributes, in words of all that their content leads to. Which kinds there are decides,
not the places they are met at, and nothing hides behind definitions, however these refer to each
other. -/
namespace RelaxDoc.Grammar

variable {g : Grammar} {id : Nat} {met : List Nat}

/-- The nodes of `met` are all that expansion from `tops` leads to, in the order of expansion. A node is
there as often as it is met. -/
structure LeadsTo (g : Grammar) (tops met : List Nat) : Prop where
  order : ∃ after, g.Gathers tops [] met after
  mem_iff : ∀ id, id ∈ met ↔ g.Reaches g.Passes tops id

theorem Gathers.leadsTo {tops : List Nat} {after : List DefineKey} (gathers : g.Gathers tops [] met after) :
    g.LeadsTo tops met := ⟨⟨after, gathers⟩, fun _ => gathers.mem_iff⟩

section Content

variable (g id met)

/-- There is none of a kind among nodes. -/
def Lacks (kind : Kind) : Prop := ∀ other ∈ met, g.kind other ≠ kind

/-- A node is the first of a kind among nodes. -/
def IsFirst (kind : Kind) : Prop :=
  g.kind id = kind ∧ ∃ front back, met = front ++ id :: back ∧ g.Lacks front kind

/-- A node has content other than documentation. -/
def IsFilled : Prop := ∃ child ∈ g.contentChildren id, g.kind child ≠ .documentation

/-- The type of an attribute whose content leads to the nodes of `met`. -/
inductive HasType : AttributeType → Prop where
  | bare (empty : ¬ g.IsFilled id) : HasType .text
  | data {data : Nat} (filled : g.IsFilled id) (first : g.IsFirst data met .data) :
      HasType (.primitive {
        name := ((g.node data).attribute? "type").getD ""
        description := g.description data
        params := ((g.children data).filter fun child => g.kind child = .param).map fun param =>
          ⟨(g.node param).name?.getD "", (g.node param).content⟩ })
  | text (filled : g.IsFilled id) (data : g.Lacks met .data) (text : ¬ g.Lacks met .text) :
      HasType .text
  | choice {choice : Nat} {inner : List Nat} (filled : g.IsFilled id) (data : g.Lacks met .data)
      (text : g.Lacks met .text) (first : g.IsFirst choice met .choice)
      (leads : g.LeadsTo (g.children choice) inner) :
      HasType (.enumeration ((inner.filter fun value => g.kind value = .value).map g.enumValue))
  | value {value : Nat} (filled : g.IsFilled id) (data : g.Lacks met .data)
      (text : g.Lacks met .text) (choice : g.Lacks met .choice) (first : g.IsFirst value met .value) :
      HasType (.enumeration [g.enumValue value])
  | unknown (filled : g.IsFilled id) (data : g.Lacks met .data) (text : g.Lacks met .text)
      (choice : g.Lacks met .choice) (value : g.Lacks met .value) : HasType .unknown

end Content

theorem find?_kind_eq_none_iff {kind : Kind} :
    (met.find? fun id => g.kind id = kind) = none ↔ g.Lacks met kind := by
  simp [Lacks]

theorem find?_kind_eq_some_iff {kind : Kind} :
    (met.find? fun id => g.kind id = kind) = some id ↔ g.IsFirst id met kind := by
  simp [List.find?_eq_some_iff_append, IsFirst, Lacks]

theorem hasContent_iff : g.hasContent id = true ↔ g.IsFilled id := by
  simp [hasContent, IsFilled]

/-- The content of a choice is all that is in it. -/
theorem contentChildren_of_choice (kind : g.kind id = .choice) : g.contentChildren id = g.children id := by
  rw [Arena.contentChildren, Arena.nameClass?, kind]
  simp

/-- The values that are found below a choice are those that it leads to. -/
theorem descend_values (loaded : g.Loaded) {choice : Nat} {inner : List Nat}
    (kind : g.kind choice = .choice) (leads : g.LeadsTo (g.children choice) inner) :
    g.descend choice .value = inner.filter fun value => g.kind value = .value := by
  obtain ⟨after, gathers⟩ := leads.order
  have holds : Kind.value.holdsText = true := rfl
  have unfolds := gathers.unfolds loaded holds
  rw [← contentChildren_of_choice kind] at unfolds
  exact (exists_unfolds_iff.1 ⟨after, unfolds⟩).symm

/-- The decisive pattern of each kind is the first of the kind that is met. -/
theorem hasType_attributeType (loaded : g.Loaded) {after : List DefineKey}
    (gathers : g.Gathers (g.contentChildren id) [] met after) :
    g.HasType id met (g.attributeType id) := by
  rw [attributeType, typeSource]
  simp only [gathers.firstBelow?_eq]
  by_cases filled : g.IsFilled id
  · rw [hasContent_iff.2 filled]
    cases data : met.find? fun id => g.kind id = .data with
    | some first => exact .data filled (find?_kind_eq_some_iff.1 data)
    | none =>
      have data := find?_kind_eq_none_iff.1 data
      cases text : met.find? fun id => g.kind id = .text with
      | some _ =>
        refine .text filled data fun lacks => ?_
        rw [find?_kind_eq_none_iff.2 lacks] at text
        cases text
      | none =>
        have text := find?_kind_eq_none_iff.1 text
        cases choice : met.find? fun id => g.kind id = .choice with
        | some outermost =>
          have first := find?_kind_eq_some_iff.1 choice
          obtain ⟨inner, _, within⟩ := exists_gathers g (g.children outermost)
          have type := HasType.choice filled data text first within.leadsTo
          rwa [← descend_values loaded first.1 within.leadsTo] at type
        | none =>
          have choice := find?_kind_eq_none_iff.1 choice
          cases value : met.find? fun id => g.kind id = .value with
          | some first => exact .value filled data text choice (find?_kind_eq_some_iff.1 value)
          | none => exact .unknown filled data text choice (find?_kind_eq_none_iff.1 value)
  · rw [Bool.eq_false_iff.2 (mt hasContent_iff.1 filled)]
    exact .bare filled

theorem HasType.eq (loaded : g.Loaded) {after : List DefineKey} {type : AttributeType}
    (gathers : g.Gathers (g.contentChildren id) [] met after) (has : g.HasType id met type) :
    g.attributeType id = type := by
  rw [attributeType, typeSource]
  simp only [gathers.firstBelow?_eq]
  cases has with
  | bare empty => rw [Bool.eq_false_iff.2 (mt hasContent_iff.1 empty)]; rfl
  | data filled first =>
    rw [hasContent_iff.2 filled, find?_kind_eq_some_iff.2 first]
    rfl
  | text filled data text =>
    rw [hasContent_iff.2 filled, find?_kind_eq_none_iff.2 data]
    have some := Option.isSome_iff_ne_none.2 (mt find?_kind_eq_none_iff.1 text)
    simp [some]
  | choice filled data text first leads =>
    rw [hasContent_iff.2 filled, find?_kind_eq_none_iff.2 data, find?_kind_eq_none_iff.2 text,
      find?_kind_eq_some_iff.2 first, ← descend_values loaded first.1 leads]
    rfl
  | value filled data text choice first =>
    rw [hasContent_iff.2 filled, find?_kind_eq_none_iff.2 data, find?_kind_eq_none_iff.2 text,
      find?_kind_eq_none_iff.2 choice, find?_kind_eq_some_iff.2 first]
    rfl
  | unknown filled data text choice value =>
    rw [hasContent_iff.2 filled, find?_kind_eq_none_iff.2 data, find?_kind_eq_none_iff.2 text,
      find?_kind_eq_none_iff.2 choice, find?_kind_eq_none_iff.2 value]
    rfl

/-- An attribute whose values stand behind definitions that go on with each other and with themselves. -/
def cyclicDocument : Xml.Document := .ofContent
  [.pattern .start none [.pattern .element "e" [.pattern .attr "a" [.pattern .ref "d" []]]],
   .pattern .define "d" [.pattern .group none
    [.pattern .ref "d" [],
     .pattern .choice none [.pattern .value none [.text "x"], .pattern .ref "f" []]]],
   .pattern .define "f" [.pattern .choice none
    [.pattern .value none [.text "y"], .pattern .ref "f" []]]]

/-- The grammar of `cyclicDocument`; its attribute is at 3. -/
def cyclic : Grammar := .ofKept cyclicDocument rfl

theorem cyclic_loaded : cyclic.Loaded := loaded_ofKept _ rfl rfl

theorem cyclic_passes : ∀ id ∈ [6, 8, 12], cyclic.Passes id := by
  unfold Passes
  decide +kernel

/-- The choice in the first definition leads to the value next to it and to the one in the second
definition, which is gone through once though it refers to itself. -/
theorem cyclic_alternatives {visited : List DefineKey} (fresh : ⟨some 0, "f"⟩ ∉ visited) :
    cyclic.Gathers (cyclic.children 8) visited [9, 10, 12, 13, 14] (⟨some 0, "f"⟩ :: visited) := by
  have inside : cyclic.Gathers (cyclic.children 12) (⟨some 0, "f"⟩ :: visited) [13, 14]
      (⟨some 0, "f"⟩ :: visited) := by
    have children : cyclic.children 12 = [13, 14] := rfl
    have named : cyclic.defineKey? 14 = some ⟨some 0, "f"⟩ := by decide +kernel
    rw [children]
    exact .leaf cyclic_loaded rfl (.known rfl named (List.mem_cons_self ..) .done)
  have defined : cyclic.Gathers ((cyclic.definesOf ⟨some 0, "f"⟩).flatMap cyclic.children)
      (⟨some 0, "f"⟩ :: visited) [12, 13, 14] (⟨some 0, "f"⟩ :: visited) := by
    have children : (cyclic.definesOf ⟨some 0, "f"⟩).flatMap cyclic.children = [12] := by decide +kernel
    rw [children]
    exact .enter (cyclic_passes 12 (by simp)) rfl inside .done
  have children : cyclic.children 8 = [9, 10] := rfl
  have named : cyclic.defineKey? 10 = some ⟨some 0, "f"⟩ := by decide +kernel
  rw [children]
  exact .leaf cyclic_loaded rfl (.expand rfl named fresh defined .done)

theorem cyclic_gathers : cyclic.Gathers (cyclic.contentChildren 3) [] [4, 6, 7, 8, 9, 10, 12, 13, 14]
    [⟨some 0, "f"⟩, ⟨some 0, "d"⟩] := by
  have inside : cyclic.Gathers (cyclic.children 6) [⟨some 0, "d"⟩] [7, 8, 9, 10, 12, 13, 14]
      [⟨some 0, "f"⟩, ⟨some 0, "d"⟩] := by
    have children : cyclic.children 6 = [7, 8] := rfl
    have named : cyclic.defineKey? 7 = some ⟨some 0, "d"⟩ := by decide +kernel
    rw [children]
    exact .known rfl named (List.mem_cons_self ..)
      (.enter (cyclic_passes 8 (by simp)) rfl (cyclic_alternatives (by decide)) .done)
  have defined : cyclic.Gathers ((cyclic.definesOf ⟨some 0, "d"⟩).flatMap cyclic.children)
      [⟨some 0, "d"⟩] [6, 7, 8, 9, 10, 12, 13, 14] [⟨some 0, "f"⟩, ⟨some 0, "d"⟩] := by
    have children : (cyclic.definesOf ⟨some 0, "d"⟩).flatMap cyclic.children = [6] := by decide +kernel
    rw [children]
    exact .enter (cyclic_passes 6 (by simp)) rfl inside .done
  have content : cyclic.contentChildren 3 = [4] := rfl
  have named : cyclic.defineKey? 4 = some ⟨some 0, "d"⟩ := by decide +kernel
  rw [content]
  exact .expand rfl named List.not_mem_nil defined .done

theorem attributeType_cyclic : cyclic.attributeType 3 = .enumeration [⟨"x", ""⟩, ⟨"y", ""⟩] := by
  have filled : cyclic.IsFilled 3 := hasContent_iff.1 rfl
  have lacks : ∀ kind ∈ [Kind.data, .text], cyclic.Lacks [4, 6, 7, 8, 9, 10, 12, 13, 14] kind := by
    unfold Lacks
    decide +kernel
  have front : cyclic.Lacks [4, 6, 7] .choice := by
    unfold Lacks
    decide +kernel
  have has : cyclic.HasType 3 [4, 6, 7, 8, 9, 10, 12, 13, 14] _ :=
    .choice filled (lacks .data (by simp)) (lacks .text (by simp))
      ⟨rfl, [4, 6, 7], [9, 10, 12, 13, 14], rfl, front⟩ (cyclic_alternatives List.not_mem_nil).leadsTo
  rw [has.eq cyclic_loaded cyclic_gathers]
  decide +kernel

end RelaxDoc.Grammar
