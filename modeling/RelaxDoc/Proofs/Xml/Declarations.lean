import RelaxDoc.Proofs.Xml.Tags

/-! Declarations in a document that is read from a text. No element declares a qualifier twice, also
where its declarations come from several start tags. -/
namespace RelaxDoc.Xml

/-- No qualifier is declared twice. The default namespace may be. -/
def DeclareOnce (declarations : List Declaration) : Prop :=
  (declarations.filterMap Declaration.qualifier).Nodup

/-- No element of a node declares a qualifier twice. This is all that is taken for granted of an XML
reader where a grammar is held against the scopes of a document. -/
def Node.DeclaresOnce (node : Node) : Prop :=
  ∀ address tag children, node.at? address = some (.element tag children) →
    DeclareOnce tag.declarations

theorem DeclareOnce.concat {declarations : List Declaration} (once : DeclareOnce declarations)
    {d : Declaration} (fresh : d.qualifier.isSome → ∀ e ∈ declarations, e.qualifier ≠ d.qualifier) :
    DeclareOnce (declarations ++ [d]) := by
  rw [DeclareOnce, List.filterMap_append]
  cases known : d.qualifier with
  | none => simpa [known] using (show (declarations.filterMap _).Nodup from once)
  | some qualifier =>
    rw [known, Option.isSome_some] at fresh
    have absent : qualifier ∉ declarations.filterMap Declaration.qualifier := by
      intro member
      obtain ⟨e, there, same⟩ := List.mem_filterMap.1 member
      exact fresh rfl e there same
    rw [List.filterMap_cons_some known]
    refine List.nodup_append.2 ⟨once, List.pairwise_singleton .., fun one member other last => ?_⟩
    rintro rfl
    exact absent (List.mem_singleton.1 last ▸ member)

/-- A qualifier is refused where it is declared already. -/
theorem splitAssignments_declareOnce {assignments : List Assignment} {declared : List Declaration}
    (once : DeclareOnce declared) {found : List Declaration × List Assignment}
    (read : splitAssignments assignments declared = .ok found) : DeclareOnce found.1 := by
  induction assignments generalizing declared found with
  | nil =>
    cases read
    exact once
  | cons a rest ih =>
    rw [splitAssignments] at read
    obtain ⟨kind, -, eq⟩ := exists_of_bind read
    cases kind with
    | known => exact ih once eq
    | nothing =>
      obtain ⟨⟨declared', others⟩, there, eq⟩ := exists_of_bind eq
      cases eq
      have behind := ih once there
      exact behind
    | binding d =>
      dsimp only at eq
      split at eq
      · cases eq
      · rename_i unseen
        refine ih (once.concat fun named e member same => unseen ?_) eq
        simp only [named, Bool.true_and, List.any_eq_true, decide_eq_true_eq]
        exact ⟨e, member, same⟩

theorem Pending.declareOnce_none : DeclareOnce none.declarations := .nil

theorem Pending.declareOnce_add {pending found : Pending} (once : DeclareOnce pending.declarations)
    {assignments : List Assignment} (read : pending.add assignments = .ok found) :
    DeclareOnce found.declarations := by
  obtain ⟨⟨declarations, others⟩, split, eq⟩ := exists_of_bind read
  cases eq
  exact splitAssignments_declareOnce once split

theorem Pending.declarations_tag {pending : Pending} {outer : Scope} {name : WrittenName} {tag : Tag}
    (read : pending.tag outer name = .ok tag) : tag.declarations = pending.declarations := by
  obtain ⟨tagName, -, eq⟩ := exists_of_bind read
  obtain ⟨attributes, -, eq⟩ := exists_of_bind eq
  cases eq
  rfl

theorem tagRule_declareOnce : TagRule (fun tag => DeclareOnce tag.declarations)
    fun pending => DeclareOnce pending.declarations where
  nothing := Pending.declareOnce_none
  add _ _ _ once read := Pending.declareOnce_add once read
  tag _ _ _ _ once _ read := Pending.declarations_tag read ▸ once

/-- No element of a document that is read from a text declares a qualifier twice. -/
theorem Document.declaresOnce_of_ofText {text : String} {document : Document}
    (read : ofText text = .ok document) : document.toNode.DeclaresOnce :=
  hasTags_of_ofText tagRule_declareOnce read

end RelaxDoc.Xml
