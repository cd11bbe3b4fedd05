/-! Looking up the second component of a pair by the first, as a case distinction on keys. -/
namespace RelaxDoc

variable {α β : Type} [DecidableEq α]

theorem lookup_cons_ite (entry : α × β) (rest : List (α × β)) (key : α) :
    (entry :: rest).lookup key = if key = entry.1 then some entry.2 else rest.lookup key := by
  obtain ⟨first, second⟩ := entry
  rw [List.lookup_cons]
  by_cases same : key = first
  · rw [beq_iff_eq.2 same, if_pos same]
  · rw [beq_eq_false_iff_ne.2 same, if_neg same]

theorem mem_keys_of_lookup_eq_some {entries : List (α × β)} {key : α} {value : β}
    (found : entries.lookup key = some value) : key ∈ entries.map Prod.fst := by
  induction entries with
  | nil => exact absurd found (by rw [List.lookup_nil]; exact nofun)
  | cons entry rest ih =>
    rw [List.map_cons, List.mem_cons]
    by_cases same : key = entry.1
    · exact .inl same
    · rw [lookup_cons_ite, if_neg same] at found
      exact .inr (ih found)

end RelaxDoc
