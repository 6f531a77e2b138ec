import Slidecast.Files.Provisional
import Slidecast.Proofs.Files.Layout

/-!
# Removing files

A path names the place at which its last name stands.  Removing a file takes away what is at the
place that its path names, unless that is a directory, and nothing else; afterwards the path leads
nowhere (`find_erase_ne_ok`).

Files that are kept provisionally are removed one after the other.  Whatever no path names stays
as it is (`lookup_removeAll`).  The removal comes to an end at the first directory: the paths in
front of it lead nowhere afterwards, and those behind it are not touched (`Clears`).
-/

set_option autoImplicit false

namespace Slidecast.Files

namespace Disk

variable {d d' : Disk} {p : Path} {place : Place}

theorem KeepsLayout.names (keeps : d.KeepsLayout d') (names : d.Names p place) :
    d'.Names p place :=
  ⟨keeps.newPlace names.1, names.2⟩

theorem SameLayout.names_iff (same : d.SameLayout d') : d'.Names p place ↔ d.Names p place :=
  ⟨same.back.names, same.forth.names⟩

/-! ## One file -/

theorem removeFile_eq_ok_iff :
    d.removeFile p = .ok d' ↔
      ∃ place node, d.Names p place ∧ d.lookup place = some node ∧ node ≠ .directory ∧
        d' = d.erase place := by
  unfold removeFile
  constructor
  · intro removed
    obtain ⟨place, created, removed⟩ := bind_eq_ok.1 removed
    cases held : d.lookup place with
    | none => simp [held] at removed
    | some node =>
        by_cases isDirectory : node = .directory
        · subst isDirectory
          simp [held] at removed
        · by_cases slash : p.endsWithSlash = true
          · cases node <;> simp_all
          · refine ⟨place, node, ⟨created, by simpa using slash⟩, held, isDirectory, ?_⟩
            cases node <;> simp_all
  · rintro ⟨place, node, ⟨created, noSlash⟩, held, isDirectory, rfl⟩
    refine bind_eq_ok.2 ⟨place, created, ?_⟩
    rw [held, noSlash]
    cases node with
    | directory => exact absurd rfl isDirectory
    | file content => rfl
    | device device => rfl
    | link target => rfl

theorem keeps_erase (d : Disk) (place : Place) : (d.erase place).Keeps d := by
  intro other node held
  rw [lookup_erase] at held
  split at held
  · cases held
  · exact held

theorem keepsLayout_erase (d : Disk) (place : Place) : (d.erase place).KeepsLayout d :=
  (keeps_erase d place).keepsLayout rfl

theorem hasPath_eq_false_iff : d.hasPath p = false ↔ ∀ found, d.find p ≠ .ok found := by
  unfold hasPath
  cases reached : d.find p with
  | error fault => simp [Except.toOption]
  | ok found =>
      simp only [Except.toOption, Option.isSome_some, Bool.true_eq_false, false_iff]
      exact fun absent => absent found rfl

theorem hasPath_of_find {found : Place × Node} (reached : d.find p = .ok found) :
    d.hasPath p = true := by
  by_contra missing
  exact hasPath_eq_false_iff.1 (by simpa using missing) found reached

theorem hasFile_iff : d.hasFile p = true ↔
    ∃ place content, d.find p = .ok (place, .file content) := by
  unfold hasFile
  split
  · next place content found => simp [found]
  · next other => simpa using other

theorem hasDirectory_iff : d.hasDirectory p = true ↔
    ∃ place, d.find p = .ok (place, .directory) := by
  unfold hasDirectory
  split
  · next place found => simp [found]
  · next other => simpa using other

/-- What a path leads to can be removed, unless it is a directory. -/
theorem exists_names (sound : p.EndsInName ∨ d.Grounded) {node : Node}
    (found : d.find p = .ok (place, node)) (other : node ≠ .directory) :
    ∃ own held, d.Names p own ∧ d.lookup own = some held ∧ held ≠ .directory := by
  have ends : p.EndsInName := by
    rcases sound with ends | grounded
    · exact ends
    · by_contra unnamed
      exact other (grounded.eq_directory_of_find found unnamed)
  have noSlash : p.endsWithSlash = false := by
    by_contra slash
    exact other (eq_directory_of_endsWithSlash found (by simpa using slash))
  obtain ⟨own, held, created, there⟩ := exists_newPlace_of_find found ends .isDirectory
  refine ⟨own, held, ⟨created, noSlash⟩, there, ?_⟩
  rintro rfl
  rw [find_of_newPlace created there nofun (.inl rfl)] at found
  cases found
  exact other rfl

/-- The file at a path is removed, or there is none, or a directory is in the way. -/
theorem removeIfPresent_cases (sound : p.EndsInName ∨ d.Grounded) :
    (d.hasPath p = false ∧ d.removeIfPresent p = .ok d) ∨
      (∃ place node, d.Names p place ∧ d.lookup place = some node ∧ node ≠ .directory ∧
        d.removeIfPresent p = .ok (d.erase place)) ∨
      (d.hasDirectory p = true ∧ ∃ fault, d.removeIfPresent p = .error fault) := by
  unfold removeIfPresent
  cases there : d.hasPath p with
  | false => exact .inl ⟨rfl, rfl⟩
  | true =>
      right
      simp only [if_true]
      cases removed : d.removeFile p with
      | ok d' =>
          obtain ⟨place, node, names, held, other, rfl⟩ := removeFile_eq_ok_iff.1 removed
          exact .inl ⟨place, node, names, held, other, rfl⟩
      | error fault =>
          right
          refine ⟨?_, fault, rfl⟩
          cases reached : d.find p with
          | error fault => simp [hasPath, reached, Except.toOption] at there
          | ok found =>
              by_cases isDirectory : found.2 = .directory
              · exact hasDirectory_iff.2 ⟨found.1, by rw [reached, ← isDirectory]⟩
              · obtain ⟨own, held, names, lookup, other⟩ := exists_names sound reached isDirectory
                rw [removeFile_eq_ok_iff.2 ⟨own, held, names, lookup, other, rfl⟩] at removed
                cases removed

/-! ## Files one after the other -/

/-- What becomes of a disk when the file at a path is not refused to be removed. -/
theorem erases_of_removeIfPresent (removed : d.removeIfPresent p = .ok d') :
    d' = d ∨ ∃ place, d.Names p place ∧ d' = d.erase place := by
  unfold removeIfPresent at removed
  split at removed
  · obtain ⟨own, _, names, _, _, same⟩ := removeFile_eq_ok_iff.1 removed
    exact .inr ⟨own, names, same⟩
  · cases removed
    exact .inl rfl

/-- **What no path names stays.** -/
theorem lookup_removeAll (d : Disk) {paths : List Path} (place : Place)
    (unnamed : ∀ p ∈ paths, ¬ d.Names p place) :
    (d.removeAll paths).2.lookup place = d.lookup place := by
  induction paths generalizing d with
  | nil => rfl
  | cons p paths ih =>
      rw [removeAll]
      cases removed : d.removeIfPresent p with
      | error fault => rfl
      | ok d' =>
          have first := unnamed p List.mem_cons_self
          have rest : ∀ q ∈ paths, ¬ d.Names q place :=
            fun q member => unnamed q (List.mem_cons_of_mem p member)
          rcases erases_of_removeIfPresent removed with rfl | ⟨own, names, rfl⟩
          · exact ih d' rest
          · have later : ∀ q ∈ paths, ¬ (d.erase own).Names q place :=
              fun q member names => rest q member ((keepsLayout_erase d own).names names)
            refine (ih (d.erase own) later).trans ?_
            rw [lookup_erase, if_neg]
            rintro ⟨rfl, _⟩
            exact first names

/-- What a path names is no link. -/
def NamesNoLink (d : Disk) (p : Path) : Prop :=
  ∀ place target, d.Names p place → d.lookup place ≠ some (.link target)

/-- The paths in front of the first one that leads to a directory. -/
def removable (d : Disk) (paths : List Path) : List Path :=
  paths.takeWhile fun p => !d.hasDirectory p

theorem SameLayout.hasDirectory_eq (same : d.SameLayout d') (p : Path) :
    d'.hasDirectory p = d.hasDirectory p := by
  rw [Bool.eq_iff_iff, hasDirectory_iff, hasDirectory_iff]
  constructor
  · rintro ⟨place, found⟩
    exact ⟨place, same.symm.find found (same.back.directory (lookup_of_find found))⟩
  · rintro ⟨place, found⟩
    exact ⟨place, same.find found (same.forth.directory (lookup_of_find found))⟩

theorem SameLayout.removable_eq (same : d.SameLayout d') (paths : List Path) :
    d'.removable paths = d.removable paths := by
  simp only [removable, same.hasDirectory_eq]

theorem SameLayout.namesNoLink (same : d.SameLayout d') (noLink : d.NamesNoLink p) :
    d'.NamesNoLink p :=
  fun place target names held =>
    noLink place target (same.names_iff.1 names) (same.back.link held)

/-- What is at the place that a path names is found there. -/
theorem find_of_names (noLink : d.NamesNoLink p) {node : Node} (names : d.Names p place)
    (held : d.lookup place = some node) : d.find p = .ok (place, node) := by
  refine find_of_newPlace names.1 held (fun target linked => ?_) (.inr names.2)
  rw [linked] at held
  exact noLink place target names held

/-- What is found is at the place that the path names, unless it is a directory. -/
theorem Grounded.names_of_find (grounded : d.Grounded) (noLink : d.NamesNoLink p) {node : Node}
    (found : d.find p = .ok (place, node)) (other : node ≠ .directory) : d.Names p place := by
  obtain ⟨own, held, names, there, _⟩ := exists_names (.inr grounded) found other
  have same := (find_of_names noLink names there).symm.trans found
  cases same
  exact names

/-- The second disk comes from the first by removing the files at paths up to the first
directory. -/
structure Clears (d d' : Disk) (paths : List Path) : Prop where
  layout : d.SameLayout d'
  gone : ∀ p ∈ d.removable paths, ∀ place, d.Names p place → d'.lookup place = none
  left : ∀ place, (∀ p ∈ d.removable paths, ¬ d.Names p place) → d'.lookup place = d.lookup place

theorem removable_cons_of_hasDirectory (paths : List Path) (there : d.hasDirectory p = true) :
    d.removable (p :: paths) = [] := by
  simp [removable, there]

theorem removable_cons (paths : List Path) (absent : d.hasDirectory p = false) :
    d.removable (p :: paths) = p :: d.removable paths := by
  simp [removable, absent]

theorem hasDirectory_eq_false_of_find {node : Node} (found : d.find p = .ok (place, node))
    (other : node ≠ .directory) : d.hasDirectory p = false := by
  by_contra there
  obtain ⟨_, reached⟩ := hasDirectory_iff.1 (by simpa using there)
  rw [found] at reached
  cases reached
  exact other rfl

theorem hasDirectory_eq_false_of_hasPath (absent : d.hasPath p = false) :
    d.hasDirectory p = false := by
  by_contra there
  obtain ⟨place, found⟩ := hasDirectory_iff.1 (by simpa using there)
  exact hasPath_eq_false_iff.1 absent _ found

/-- One step of a removal: nothing is at the place that the first path names. -/
theorem Clears.cons (paths : List Path) (same : d.SameLayout d')
    (absent : d.hasDirectory p = false)
    (gone : ∀ place, d.Names p place → d'.lookup place = none)
    (left : ∀ place, ¬ d.Names p place → d'.lookup place = d.lookup place) {d'' : Disk}
    (rest : d'.Clears d'' paths) : d.Clears d'' (p :: paths) where
  layout := same.trans rest.layout
  gone := by
    rw [removable_cons paths absent]
    intro q member place names
    by_cases later : ∃ r ∈ d'.removable paths, d'.Names r place
    · obtain ⟨r, memberRest, namesRest⟩ := later
      exact rest.gone r memberRest place namesRest
    · rcases List.mem_cons.1 member with rfl | memberRest
      · rw [rest.left place fun r memberRest namesRest => later ⟨r, memberRest, namesRest⟩]
        exact gone place names
      · rw [← same.removable_eq] at memberRest
        exact absurd ⟨q, memberRest, same.names_iff.2 names⟩ later
  left := by
    rw [removable_cons paths absent]
    intro place unnamed
    rw [rest.left place, left place (unnamed p List.mem_cons_self)]
    intro q member names
    rw [same.removable_eq] at member
    exact unnamed q (List.mem_cons_of_mem p member) (same.names_iff.1 names)

/-- **Files are removed up to the first directory.** -/
theorem Grounded.clears_removeAll (grounded : d.Grounded) {paths : List Path}
    (noLinks : ∀ p ∈ paths, d.NamesNoLink p) : d.Clears (d.removeAll paths).2 paths := by
  induction paths generalizing d with
  | nil => exact ⟨.refl d, fun _ member => (nomatch member), fun _ _ => rfl⟩
  | cons p paths ih =>
      have noLink := noLinks p List.mem_cons_self
      have others : ∀ q ∈ paths, d.NamesNoLink q :=
        fun q member => noLinks q (List.mem_cons_of_mem p member)
      rw [removeAll]
      rcases removeIfPresent_cases (p := p) (.inr grounded) with ⟨absent, removed⟩ |
        ⟨own, node, names, held, other, removed⟩ | ⟨directory, fault, refused⟩
      · rw [removed]
        refine .cons paths (.refl d) (hasDirectory_eq_false_of_hasPath absent)
          (fun place names => ?_) (fun _ _ => rfl) (ih grounded others)
        cases held : d.lookup place with
        | none => rfl
        | some node =>
            exact absurd (find_of_names noLink names held) (hasPath_eq_false_iff.1 absent _)
      · rw [removed]
        have found := find_of_names noLink names held
        have nonempty := ne_nil_of_newPlace names.1
        have same : d.SameLayout (d.erase own) := by
          refine .erase ⟨fun isDirectory => ?_, fun target => noLink own target names⟩
          rw [held] at isDirectory
          exact other (Option.some.inj isDirectory)
        refine .cons paths same (hasDirectory_eq_false_of_find found other)
          (fun place names' => ?_) (fun place unnamed => ?_)
          (ih (grounded.of_sameLayout same) fun q member => same.namesNoLink (others q member))
        · rw [lookup_erase, if_pos ⟨names'.unique names, nonempty⟩]
        · rw [lookup_erase, if_neg]
          rintro ⟨rfl, _⟩
          exact unnamed names
      · rw [refused]
        have nothing := removable_cons_of_hasDirectory paths directory
        refine ⟨.refl d, fun q member => ?_, fun _ _ => rfl⟩
        rw [nothing] at member
        cases member

end Disk

end Slidecast.Files
