import RelaxDoc.Grammar.Definitions

/-! Measures for searches that expand every key at most once: the keys still to be expanded,
and weights of pending nodes that drop when a node gives way to its children. -/
namespace RelaxDoc.Search

/-- The number of keys of an index that are not visited. -/
def unvisited (index : KeyIndex) (visited : List DefineKey) : Nat :=
  (index.map Prod.fst).countP fun key => !visited.contains key

theorem unvisited_cons_le (index : KeyIndex) (visited : List DefineKey) (key : DefineKey) :
    unvisited index (key :: visited) ≤ unvisited index visited := by
  apply List.countP_mono_left
  intro other _ fresh
  simp only [List.contains_cons, Bool.not_or, Bool.and_eq_true] at fresh
  exact fresh.2

theorem countP_lt_of_mem {α : Type} {p q : α → Bool} {items : List α} {item : α}
    (weaker : ∀ x ∈ items, p x = true → q x = true) (member : item ∈ items)
    (no : p item = false) (yes : q item = true) : items.countP p < items.countP q := by
  induction items with
  | nil => simp at member
  | cons head rest ih =>
    have mono : rest.countP p ≤ rest.countP q :=
      List.countP_mono_left fun x inside => weaker x (List.mem_cons_of_mem head inside)
    rcases List.mem_cons.1 member with rfl | inside
    · rw [List.countP_cons_of_neg (by simp [no]), List.countP_cons_of_pos yes]
      omega
    · have less := ih (fun x inside => weaker x (List.mem_cons_of_mem head inside)) inside
      have first := weaker head (List.mem_cons_self ..)
      by_cases here : p head = true
      · rw [List.countP_cons_of_pos here, List.countP_cons_of_pos (first here)]
        exact Nat.succ_lt_succ less
      · rw [List.countP_cons_of_neg here, List.countP_cons]
        exact Nat.lt_add_right _ less

theorem unvisited_cons_lt {index : KeyIndex} {visited : List DefineKey} {key : DefineKey}
    (known : key ∈ index.map Prod.fst) (fresh : visited.contains key = false) :
    unvisited index (key :: visited) < unvisited index visited := by
  refine countP_lt_of_mem (fun other _ h => ?_) known ?_ ?_
  · simp only [List.contains_cons, Bool.not_or, Bool.and_eq_true] at h
    exact h.2
  · simp
  · simpa using fresh

/-- The weight of a node among `size` nodes in a search downwards: more than its children
weigh together. -/
def below (size id : Nat) : Nat := Nat.pow 2 (size - id)

/-- The weight of pending nodes in a search downwards. -/
def pendingBelow (size : Nat) : (pending : List Nat) → Nat
  | [] => 0
  | id :: rest => below size id + pendingBelow size rest

theorem pendingBelow_cons (size id : Nat) (rest : List Nat) :
    pendingBelow size (id :: rest) = below size id + pendingBelow size rest := rfl

theorem below_pos (size id : Nat) : 0 < below size id := Nat.two_pow_pos _

theorem pendingBelow_lt {size id : Nat} {later : List Nat} (room : id < size)
    (after : ∀ x ∈ later, id < x) (bound : ∀ x ∈ later, x < size)
    (sorted : later.Pairwise (· < ·)) : pendingBelow size later < below size id := by
  induction later generalizing id with
  | nil => exact below_pos size id
  | cons head rest ih =>
    have lower := after head (List.mem_cons_self ..)
    have upper := bound head (List.mem_cons_self ..)
    have tail := ih upper (fun x => List.rel_of_pairwise_cons sorted)
      (fun x inside => bound x (List.mem_cons_of_mem head inside)) sorted.of_cons
    have step : 2 * below size head ≤ below size id := by
      calc 2 * below size head = below size head * 2 := Nat.mul_comm ..
        _ = Nat.pow 2 (size - head + 1) := rfl
        _ ≤ below size id := Nat.pow_le_pow_right (by decide) (by omega)
    rw [pendingBelow_cons]
    omega

theorem children_lt_below (a : Arena) (id : Nat) :
    pendingBelow a.size (a.children id) < below a.size id := by
  cases kids : a.children id with
  | nil => exact below_pos _ _
  | cons head rest =>
    have member : head ∈ a.children id := by simp [kids]
    have lower := a.lt_of_mem_children member
    have upper := a.child_lt_size member
    rw [← kids]
    exact pendingBelow_lt (Nat.lt_trans lower upper) (fun _ => a.lt_of_mem_children)
      (fun _ => a.child_lt_size) (a.children_sorted id)

theorem pendingBelow_append (size : Nat) (left right : List Nat) :
    pendingBelow size (left ++ right) = pendingBelow size left + pendingBelow size right := by
  induction left with
  | nil => simp [pendingBelow]
  | cons head rest ih => simp only [List.cons_append, pendingBelow_cons, ih, Nat.add_assoc]

theorem pendingBelow_sublist {size : Nat} {left right : List Nat} (sub : left.Sublist right) :
    pendingBelow size left ≤ pendingBelow size right := by
  induction sub with
  | slnil => exact Nat.le_refl _
  | cons head _ ih => simp only [pendingBelow_cons]; omega
  | cons_cons head _ ih => simp only [pendingBelow_cons]; omega

/-- The weight of pending nodes in a search upwards. -/
def pendingAbove : (pending : List Nat) → Nat
  | [] => 0
  | id :: rest => id + 1 + pendingAbove rest

theorem pendingAbove_cons (id : Nat) (rest : List Nat) :
    pendingAbove (id :: rest) = id + 1 + pendingAbove rest := rfl

theorem parents_lt_above (a : Arena) (id : Nat) :
    pendingAbove (a.parent? id).toList < id + 1 := by
  cases found : a.parent? id with
  | none => simp [pendingAbove]
  | some parent =>
    have := a.parent?_lt found
    simp [pendingAbove]
    omega

theorem pendingAbove_append (left right : List Nat) :
    pendingAbove (left ++ right) = pendingAbove left + pendingAbove right := by
  induction left with
  | nil => simp [pendingAbove]
  | cons head rest ih => simp only [List.cons_append, pendingAbove_cons, ih, Nat.add_assoc]

end RelaxDoc.Search
