import Slidecast.Proofs.Files.Making
import Slidecast.Proofs.Files.Touching

/-!
# The layout of a disk

The layout of a disk is its directories and its links.  Paths are walked through the layout alone:
a name that can be created on a disk can be created, at the same place, on every disk that keeps
the layout (`KeepsLayout.newPlace`), and disks of one layout agree on where paths lead
(`SameLayout.find`).

A disk is grounded if what lies above a directory is a directory.  On such a disk, a path that does
not end in a name leads to a directory, if anywhere (`Grounded.eq_directory_of_find`).
-/

set_option autoImplicit false

namespace Slidecast.Files.Disk

variable {d d' d'' : Disk} {p : Path} {place : Place}

/-- Only the working directory decides where the walk of a path starts. -/
theorem startPlace_of_working (same : d'.working = d.working) (p : Path) :
    d'.startPlace p = d.startPlace p := by
  unfold startPlace start
  rw [same]
  split
  · rfl
  · split
    · rfl
    · split
      · rfl
      · simp [Except.map, spot, Spot.place]

/-- A step goes the same way on another disk, if it starts in a directory there and what it comes to
stands for the same place. -/
theorem stepPlace_of_resolve_eq {next : Place} {segment : String}
    (stepped : d.stepPlace place segment = .ok next)
    (directory : d'.lookup place = some .directory)
    (same : next = d.resolve (place ++ [segment]) →
      d'.resolve (place ++ [segment]) = d.resolve (place ++ [segment])) :
    d'.stepPlace place segment = .ok next := by
  by_cases plain : segment = "." ∨ segment = ".."
  · obtain ⟨_, _, named⟩ := bind_eq_ok.1 stepped
    refine bind_eq_ok.2 ⟨(), enterPlace_eq_ok_iff.2 directory, ?_⟩
    rcases plain with rfl | rfl
    · exact named
    · exact named
  · obtain ⟨_, short, rfl⟩ := (stepPlace_name_eq_ok_iff plain).1 stepped
    exact (stepPlace_name_eq_ok_iff plain).2 ⟨directory, short, (same rfl).symm⟩

/-! ## Disks that keep a layout -/

/-- The directories and links of the first disk are on the second one too, and relative paths
start in the same directory. -/
structure KeepsLayout (d d' : Disk) : Prop where
  working : d'.working = d.working
  directory : ∀ {place}, d.lookup place = some .directory → d'.lookup place = some .directory
  link : ∀ {place target}, d.lookup place = some (.link target) →
    d'.lookup place = some (.link target)

theorem Keeps.keepsLayout (keeps : d.Keeps d') (working : d'.working = d.working) :
    d.KeepsLayout d' where
  working := working
  directory held := keeps _ _ held
  link held := keeps _ _ held

/-- What is found stays found on a disk that keeps what exists. -/
theorem Keeps.find (keeps : d.Keeps d') (working : d'.working = d.working) {node : Node}
    (found : d.find p = .ok (place, node)) : d'.find p = .ok (place, node) := by
  obtain ⟨start, started, walked, held⟩ := find_eq_ok_iff.1 found
  rw [← startPlace_of_working working] at started
  exact find_eq_ok_iff.2
    ⟨start, started, walkPlaces_of_keeps keeps walked held, keeps _ _ held⟩

namespace KeepsLayout

theorem refl (d : Disk) : d.KeepsLayout d := (Keeps.refl d).keepsLayout rfl

theorem trans (first : d.KeepsLayout d') (second : d'.KeepsLayout d'') : d.KeepsLayout d'' where
  working := second.working.trans first.working
  directory held := second.directory (first.directory held)
  link held := second.link (first.link held)

/-- What stands for a directory stands for the same directory. -/
theorem resolve (keeps : d.KeepsLayout d')
    (held : d.lookup (d.resolve place) = some .directory) : d'.resolve place = d.resolve place := by
  cases here : d.lookup place with
  | none =>
      have self : d.resolve place = place := resolve_of_ne_link (by simp [here])
      rw [self, here] at held
      cases held
  | some node =>
      by_cases linked : ∃ target, node = .link target
      · obtain ⟨target, rfl⟩ := linked
        unfold Disk.resolve
        rw [here, keeps.link here]
      · have self : d.resolve place = place := by
          refine resolve_of_ne_link fun target same => linked ⟨target, ?_⟩
          rw [here] at same
          exact Option.some.inj same
        rw [self] at held ⊢
        exact resolve_of_ne_link (by simp [keeps.directory held])

theorem stepPlace (keeps : d.KeepsLayout d') {next : Place} {segment : String}
    (stepped : d.stepPlace place segment = .ok next) (held : d.lookup next = some .directory) :
    d'.stepPlace place segment = .ok next := by
  have directory := keeps.directory (lookup_of_stepPlace stepped)
  refine stepPlace_of_resolve_eq stepped directory fun reached => ?_
  rw [reached] at held
  exact keeps.resolve held

/-- A walk to a directory passes through directories and links alone. -/
theorem walkPlaces (keeps : d.KeepsLayout d') {segments : List String} {goal : Place}
    (walked : d.walkPlaces segments place = .ok goal) (held : d.lookup goal = some .directory) :
    d'.walkPlaces segments place = .ok goal := by
  induction segments generalizing place with
  | nil => exact walked
  | cons segment segments ih =>
      rw [walkPlaces_cons] at walked ⊢
      obtain ⟨next, stepped, rest⟩ := bind_eq_ok.1 walked
      have heldNext : d.lookup next = some .directory := by
        cases segments with
        | nil =>
            cases rest
            exact held
        | cons other segments =>
            rw [walkPlaces_cons] at rest
            obtain ⟨_, steppedOther, _⟩ := bind_eq_ok.1 rest
            exact lookup_of_stepPlace steppedOther
      exact bind_eq_ok.2 ⟨next, keeps.stepPlace stepped heldNext, ih rest⟩

/-- **Where a name can be created, it can be created on every disk that keeps the layout.** -/
theorem newPlace (keeps : d.KeepsLayout d') {onDots : Fault}
    (created : d.newPlace p onDots = .ok place) : d'.newPlace p onDots = .ok place := by
  obtain ⟨start, directory, last, started, named, walked, held, rest⟩ :=
    newPlace_eq_ok_iff.1 created
  rw [← startPlace_of_working keeps.working] at started
  exact newPlace_eq_ok_iff.2 ⟨start, directory, last, started, named,
    keeps.walkPlaces walked held, keeps.directory held, rest⟩

end KeepsLayout

/-- Touching a file makes neither directories nor links. -/
theorem TouchesOnly.keepsLayout (touches : d.TouchesOnly d' p)
    (working : d'.working = d.working) : d'.KeepsLayout d where
  working := working.symm
  directory {place} held := by
    rcases touches place with same | ⟨_, vacant | ⟨content, file⟩⟩
    · exact same.symm.trans held
    · rw [vacant] at held
      cases held
    · rw [file] at held
      cases held
  link {place target} held := by
    rcases touches place with same | ⟨_, vacant | ⟨content, file⟩⟩
    · exact same.symm.trans held
    · rw [vacant] at held
      cases held
    · rw [file] at held
      cases held

/-! ## Disks of one layout -/

/-- Two disks have the same directories and links, and relative paths start in the same
directory. -/
structure SameLayout (d d' : Disk) : Prop where
  forth : d.KeepsLayout d'
  back : d'.KeepsLayout d

/-- Neither a directory nor a link. -/
def IsLeaf (held : Option Node) : Prop :=
  held ≠ some .directory ∧ ∀ target, held ≠ some (.link target)

theorem isLeaf_none : IsLeaf none := ⟨nofun, nofun⟩

theorem isLeaf_file (content : Content) : IsLeaf (some (.file content)) := ⟨nofun, nofun⟩

namespace SameLayout

theorem refl (d : Disk) : d.SameLayout d := ⟨.refl d, .refl d⟩

theorem symm (same : d.SameLayout d') : d'.SameLayout d := ⟨same.back, same.forth⟩

theorem trans (first : d.SameLayout d') (second : d'.SameLayout d'') : d.SameLayout d'' :=
  ⟨first.forth.trans second.forth, second.back.trans first.back⟩

/-- What a change leaves of the layout: all, if no place that is changed is or becomes part of
it. -/
theorem of_leaves (working : d'.working = d.working)
    (leaves : ∀ place, d'.lookup place = d.lookup place ∨
      (IsLeaf (d.lookup place) ∧ IsLeaf (d'.lookup place))) : d.SameLayout d' where
  forth :=
    { working := working
      directory := fun {place} held => by
        rcases leaves place with same | ⟨leaf, _⟩
        · exact same.trans held
        · exact absurd held leaf.1
      link := fun {place target} held => by
        rcases leaves place with same | ⟨leaf, _⟩
        · exact same.trans held
        · exact absurd held (leaf.2 target) }
  back :=
    { working := working.symm
      directory := fun {place} held => by
        rcases leaves place with same | ⟨_, leaf⟩
        · exact same.symm.trans held
        · exact absurd held leaf.1
      link := fun {place target} held => by
        rcases leaves place with same | ⟨_, leaf⟩
        · exact same.symm.trans held
        · exact absurd held (leaf.2 target) }

theorem put_file (leaf : IsLeaf (d.lookup place)) (nonempty : place ≠ []) (content : Content) :
    d.SameLayout (d.put place (.file content)) := by
  refine of_leaves rfl fun other => ?_
  rw [lookup_put d nonempty]
  by_cases same : other = place
  · rw [if_pos same, same]
    exact .inr ⟨leaf, isLeaf_file content⟩
  · rw [if_neg same]
    exact .inl rfl

theorem erase (leaf : IsLeaf (d.lookup place)) : d.SameLayout (d.erase place) := by
  refine of_leaves rfl fun other => ?_
  rw [lookup_erase]
  by_cases same : other = place ∧ place ≠ []
  · rw [if_pos same, same.1]
    exact .inr ⟨leaf, isLeaf_none⟩
  · rw [if_neg same]
    exact .inl rfl

theorem resolve (same : d.SameLayout d') (place : Place) : d'.resolve place = d.resolve place := by
  by_cases linked : ∃ target, d.lookup place = some (.link target)
  · obtain ⟨target, held⟩ := linked
    unfold Disk.resolve
    rw [held, same.forth.link held]
  · have noLink : ∀ target, d.lookup place ≠ some (.link target) :=
      fun target held => linked ⟨target, held⟩
    rw [resolve_of_ne_link noLink,
      resolve_of_ne_link fun target held => noLink target (same.back.link held)]

theorem stepPlace (same : d.SameLayout d') {next : Place} {segment : String}
    (stepped : d.stepPlace place segment = .ok next) : d'.stepPlace place segment = .ok next :=
  have directory := same.forth.directory (lookup_of_stepPlace stepped)
  stepPlace_of_resolve_eq stepped directory fun _ => same.resolve _

theorem walkPlaces (same : d.SameLayout d') {segments : List String} {goal : Place}
    (walked : d.walkPlaces segments place = .ok goal) :
    d'.walkPlaces segments place = .ok goal := by
  induction segments generalizing place with
  | nil => exact walked
  | cons segment segments ih =>
      rw [walkPlaces_cons] at walked ⊢
      obtain ⟨next, stepped, rest⟩ := bind_eq_ok.1 walked
      exact bind_eq_ok.2 ⟨next, same.stepPlace stepped, ih rest⟩

/-- Where a path leads does not change with the layout, and what it leads to is what is there. -/
theorem find (same : d.SameLayout d') {node node' : Node}
    (found : d.find p = .ok (place, node)) (held : d'.lookup place = some node') :
    d'.find p = .ok (place, node') := by
  obtain ⟨start, started, walked, _⟩ := find_eq_ok_iff.1 found
  rw [← startPlace_of_working same.forth.working] at started
  exact find_eq_ok_iff.2 ⟨start, started, same.walkPlaces walked, held⟩

end SameLayout

/-! ## Grounded disks -/

/-- What lies above a directory is a directory. -/
def Grounded (d : Disk) : Prop :=
  ∀ place, d.lookup place = some .directory → d.lookup place.dropLast = some .directory

theorem Grounded.of_sameLayout (grounded : d.Grounded) (same : d.SameLayout d') : d'.Grounded :=
  fun place held => same.forth.directory (grounded place (same.back.directory held))

theorem Grounded.put_directory (grounded : d.Grounded)
    (above : d.lookup place.dropLast = some .directory) (nonempty : place ≠ []) :
    (d.put place .directory).Grounded := by
  have kept : ∀ other, d.lookup other = some .directory →
      (d.put place .directory).lookup other = some .directory := by
    intro other held
    rw [lookup_put d nonempty]
    split
    · rfl
    · exact held
  intro other held
  rw [lookup_put d nonempty] at held
  split at held
  · next same =>
      rw [same]
      exact kept _ above
  · exact kept _ (grounded other held)

theorem Grounded.put_file (grounded : d.Grounded) (vacant : d.lookup place = none)
    (nonempty : place ≠ []) (content : Content) : (d.put place (.file content)).Grounded := by
  refine grounded.of_sameLayout (.put_file ?_ nonempty content)
  rw [vacant]
  exact isLeaf_none

theorem lookup_empty_take (working : Place) (n : Nat) :
    (empty working).lookup (working.take n) = some .directory := by
  unfold lookup
  split
  · rfl
  · next filled =>
      cases n with
      | zero => exact absurd rfl filled
      | succ n =>
          rw [empty, find?_foldl_insert, if_pos]
          by_cases within : n < working.length
          · exact ⟨n, List.mem_range.2 within, rfl⟩
          · refine ⟨working.length - 1, List.mem_range.2 ?_, ?_⟩
            · have : working ≠ [] := by
                rintro rfl
                simp at filled
              have := List.length_pos_iff.2 this
              omega
            · rw [List.take_of_length_le (by omega), List.take_of_length_le (by omega)]

/-- A disk on which nothing has been made is grounded. -/
theorem grounded_empty (working : Place) : (empty working).Grounded := by
  intro place held
  have same := List.prefix_iff_eq_take.1 (prefix_of_lookup_empty held)
  rw [same, List.dropLast_eq_take, List.take_take]
  exact lookup_empty_take working _

/-- A path that asks for a directory leads to one. -/
theorem eq_directory_of_endsWithSlash {node : Node} (found : d.find p = .ok (place, node))
    (slash : p.endsWithSlash = true) : node = .directory := by
  obtain ⟨start, _, walked, held⟩ := find_eq_ok_iff.1 found
  rw [steps, slash, if_pos rfl, walkPlaces_append] at walked
  obtain ⟨between, _, walked⟩ := bind_eq_ok.1 walked
  rw [walkPlaces_cons] at walked
  obtain ⟨next, stepped, same⟩ := bind_eq_ok.1 walked
  cases same
  have directory := lookup_of_stepPlace stepped
  rw [stepPlace_dot directory] at stepped
  cases stepped
  rw [directory] at held
  exact (Option.some.inj held).symm

theorem segments_ne_nil_of_isAbsolute_eq_false (filled : p.text ≠ "")
    (relative : p.isAbsolute = false) : p.segments ≠ [] := by
  cases cs : p.text.toList with
  | nil => simp_all
  | cons c rest =>
      have other : c ≠ '/' := by
        rintro rfl
        simp [Path.isAbsolute, cs] at relative
      rw [Path.segments_eq, cs, Path.segmentsOf, cutAtSlash, if_neg other]
      split
      · simp
      · simp

/-- The walk of a path without segments stays at the root. -/
theorem startPlace_of_segments_eq_nil {start : Place} (started : d.startPlace p = .ok start)
    (bare : p.segments = []) : start = [] := by
  have absolute : p.isAbsolute = true := by
    by_contra relative
    refine segments_ne_nil_of_isAbsolute_eq_false (fun empty => ?_) (by simpa using relative) bare
    simp [startPlace, Disk.start, empty, Except.map] at started
  exact start_eq_nil absolute started

/-- **A path that does not end in a name leads to a directory.** -/
theorem Grounded.eq_directory_of_find (grounded : d.Grounded) {node : Node}
    (found : d.find p = .ok (place, node)) (unnamed : ¬ p.EndsInName) : node = .directory := by
  by_cases slash : p.endsWithSlash = true
  · exact eq_directory_of_endsWithSlash found slash
  obtain ⟨start, started, walked, held⟩ := find_eq_ok_iff.1 found
  have reached : d.lookup place = some .directory := by
    cases named : p.segments.getLast? with
    | none =>
        have empty : p.segments = [] := List.getLast?_eq_none_iff.1 named
        rw [steps, if_neg slash, empty] at walked
        cases walked
        rw [startPlace_of_segments_eq_nil started empty]
        rfl
    | some last =>
        have dots : last = "." ∨ last = ".." := by
          by_contra plain
          exact unnamed ⟨last, named, plain⟩
        rw [steps_eq_of_getLast? named, if_neg slash, walkPlaces_append] at walked
        obtain ⟨between, _, walked⟩ := bind_eq_ok.1 walked
        rw [walkPlaces_cons] at walked
        obtain ⟨next, stepped, same⟩ := bind_eq_ok.1 walked
        cases same
        have directory := lookup_of_stepPlace stepped
        rcases dots with rfl | rfl
        · rw [stepPlace_dot directory] at stepped
          cases stepped
          exact directory
        · obtain ⟨_, _, up⟩ := bind_eq_ok.1 stepped
          cases up
          exact grounded between directory
  rw [reached] at held
  exact (Option.some.inj held).symm

end Slidecast.Files.Disk
