/-!
# Trees with named branches

A tree has a value at some of its vertices, and each vertex has branches with names.  A vertex is
told by the names that lead to it from the root.  `Trie.find?` is the view of a tree, and every
change is described by what it does to it: a change at a vertex acts on what lies at and below it
(`find?_update`), so a value that is put in or taken out leaves all others alone
(`find?_insert`, `find?_erase`), and a cut takes away all that lies below (`find?_prune`).
-/

set_option autoImplicit false

namespace Slidecast.Files

/-- A tree whose branches have names, with a value at some of its vertices. -/
inductive Trie (α : Type) where
  | node (value : Option α) (branches : List (String × Trie α))

namespace Trie

variable {α : Type}

/-- The tree without values. -/
def empty : Trie α := .node none []

/-- The value at the root. -/
def value : Trie α → Option α
  | .node value _ => value

/-- The trees behind the root, each with its name. -/
def branches : Trie α → List (String × Trie α)
  | .node _ branches => branches

/-- The tree behind a name. -/
def branch (t : Trie α) (name : String) : Trie α :=
  match t.branches.find? (fun entry => entry.1 = name) with
  | some entry => entry.2
  | none => empty

/-- The tree that a row of names leads to. -/
def part (t : Trie α) (names : List String) : Trie α := names.foldl branch t

/-- The value at the vertex that a row of names leads to. -/
def find? (t : Trie α) (names : List String) : Option α := (t.part names).value

/-- The tree with another one behind a name. -/
def setBranch (t : Trie α) (name : String) (other : Trie α) : Trie α :=
  .node t.value ((name, other) :: t.branches.filter fun entry => entry.1 ≠ name)

/-- The tree after a change of what a row of names leads to. -/
def update (t : Trie α) (names : List String) (change : Trie α → Trie α) : Trie α :=
  match names with
  | [] => change t
  | name :: names => t.setBranch name ((t.branch name).update names change)

/-- The tree with a value at a vertex. -/
def insert (t : Trie α) (names : List String) (a : α) : Trie α :=
  t.update names fun s => .node (some a) s.branches

/-- The tree without the value at a vertex. -/
def erase (t : Trie α) (names : List String) : Trie α :=
  t.update names fun s => .node none s.branches

/-- The tree without all that lies at and below a vertex. -/
def prune (t : Trie α) (names : List String) : Trie α := t.update names fun _ => empty

mutual
/-- The values of a tree, each with the names that lead to it. -/
def toList : Trie α → List (List String × α)
  | .node value branches =>
      let rest := branchesToList branches
      match value with
      | some a => ([], a) :: rest
      | none => rest

/-- The values of the trees behind names. -/
def branchesToList : List (String × Trie α) → List (List String × α)
  | [] => []
  | entry :: branches => entryToList entry ++ branchesToList branches

/-- The values of the tree behind a name. -/
def entryToList : String × Trie α → List (List String × α)
  | (name, t) => (toList t).map fun found => (name :: found.1, found.2)
end

/-! ## The view of each change -/

@[simp] theorem find?_nil (t : Trie α) : t.find? [] = t.value := rfl

@[simp] theorem find?_cons (t : Trie α) (name : String) (names : List String) :
    t.find? (name :: names) = (t.branch name).find? names := rfl

@[simp] theorem part_append (t : Trie α) (front back : List String) :
    t.part (front ++ back) = (t.part front).part back := List.foldl_append

@[simp] theorem value_setBranch (t : Trie α) (name : String) (other : Trie α) :
    (t.setBranch name other).value = t.value := rfl

theorem branch_setBranch (t : Trie α) (name : String) (other : Trie α) (asked : String) :
    (t.setBranch name other).branch asked = if asked = name then other else t.branch asked := by
  by_cases same : asked = name
  · subst same
    simp [setBranch, branch, branches]
  · have kept : (t.branches.filter fun entry => decide (entry.1 ≠ name)).find?
        (fun entry => decide (entry.1 = asked)) =
        t.branches.find? (fun entry => decide (entry.1 = asked)) := by
      rw [List.find?_filter]
      congr 1
      funext entry
      by_cases e : entry.1 = asked
      · simp [e, same]
      · simp [e]
    have other_name : ¬ name = asked := fun e => same e.symm
    have behind : (t.setBranch name other).branches =
        (name, other) :: t.branches.filter fun entry => decide (entry.1 ≠ name) := rfl
    simp only [branch, behind, same, if_false, List.find?_cons, other_name, decide_false, kept]

@[simp] theorem find?_empty (names : List String) : (empty : Trie α).find? names = none := by
  induction names with
  | nil => rfl
  | cons name names ih => exact ih

/-- A change at a vertex acts on what lies at and below the vertex. -/
theorem find?_update (t : Trie α) (names : List String) (change : Trie α → Trie α)
    (asked : List String) :
    (t.update names change).find? asked =
      if names.isPrefixOf asked then (change (t.part names)).find? (asked.drop names.length)
      else t.find? asked := by
  induction names generalizing t asked with
  | nil => simp [update, part]
  | cons name names ih =>
    cases asked with
    | nil => simp [update]
    | cons first rest =>
      rw [update, find?_cons, branch_setBranch]
      by_cases same : first = name
      · subst same
        simp [ih, part]
      · have : ¬ name = first := fun e => same e.symm
        simp [same, this]

theorem find?_part (t : Trie α) (front back : List String) :
    (t.part front).find? back = t.find? (front ++ back) := by
  simp [find?]

/-- A prefix is followed by what is left when it is dropped. -/
theorem append_drop_of_isPrefixOf {front whole : List String}
    (h : front.isPrefixOf whole = true) : front ++ whole.drop front.length = whole := by
  obtain ⟨back, rfl⟩ := List.isPrefixOf_iff_prefix.1 h
  simp

theorem find?_node_of_ne (value : Option α) (branches : List (String × Trie α))
    {names : List String} (h : names ≠ []) :
    (node value branches).find? names = (node none branches).find? names := by
  cases names with
  | nil => exact absurd rfl h
  | cons name names => rfl

/-- Changing the value at a vertex changes the view there alone. -/
theorem find?_update_value (t : Trie α) (names : List String) (value : Option α)
    (asked : List String) :
    (t.update names fun s => node value s.branches).find? asked =
      if asked = names then value else t.find? asked := by
  rw [find?_update]
  by_cases inside : names.isPrefixOf asked = true
  · have whole := append_drop_of_isPrefixOf inside
    by_cases same : asked = names
    · subst same
      simp [Trie.value]
    · have more : asked.drop names.length ≠ [] := by
        intro none
        rw [none, List.append_nil] at whole
        exact same whole.symm
      simp only [inside, if_true, same, if_false]
      rw [find?_node_of_ne _ _ more]
      have split := find?_part t names (asked.drop names.length)
      rw [whole] at split
      rw [← split]
      rcases t.part names with ⟨v, bs⟩
      exact (find?_node_of_ne v bs more).symm
  · have : asked ≠ names := by
      rintro rfl
      exact inside (List.isPrefixOf_iff_prefix.2 (List.prefix_refl _))
    simp [inside, this]

theorem find?_insert (t : Trie α) (names : List String) (a : α) (asked : List String) :
    (t.insert names a).find? asked = if asked = names then some a else t.find? asked :=
  find?_update_value t names (some a) asked

theorem find?_erase (t : Trie α) (names asked : List String) :
    (t.erase names).find? asked = if asked = names then none else t.find? asked :=
  find?_update_value t names none asked

theorem find?_prune (t : Trie α) (names asked : List String) :
    (t.prune names).find? asked =
      if names.isPrefixOf asked then none else t.find? asked := by
  rw [prune, find?_update]
  simp

end Trie

end Slidecast.Files
