import Slidecast.Proofs.Files.Removal

/-!
# Discarding provisional files

What is left when provisional files are discarded.  A single file is gone (`hasFile_discard_file`).
Of several, all are gone unless a directory stands in front of one of them: the removal ends there
(`discard_clears_iff`).
-/

set_option autoImplicit false

namespace Slidecast.Files.Provisional

open Disk

variable {d : Disk} {p : Path}

/-! ## A single file -/

theorem discard_file (d : Disk) (p : Path) :
    ((file p).discard d).2 =
      match d.removeIfPresent p with
      | .ok d' => d'
      | .error _ => d := by
  show (d.removeAll [p]).2 = _
  rw [removeAll]
  cases d.removeIfPresent p with
  | ok d' => rfl
  | error fault => rfl

/-- **A file stays exactly if its place is not the one that the path names.** -/
theorem lookup_discard_file_iff {place : Place} {content : Content}
    (held : d.lookup place = some (.file content)) :
    ((file p).discard d).2.lookup place = some (.file content) ↔ ¬ d.Names p place := by
  constructor
  · intro stays names
    have found : d.find p = .ok (place, .file content) :=
      find_of_newPlace names.1 held nofun (.inr names.2)
    have removed : d.removeFile p = .ok (d.erase place) :=
      removeFile_eq_ok_iff.2 ⟨place, _, names, held, nofun, rfl⟩
    have present : d.removeIfPresent p = .ok (d.erase place) := by
      rw [removeIfPresent, hasPath_of_find found, if_pos rfl, removed]
    rw [discard_file, present] at stays
    simp only [lookup_erase, ne_nil_of_newPlace names.1, ne_eq, not_false_eq_true, and_self,
      if_true, reduceCtorEq] at stays
  · intro unnamed
    rw [← held]
    refine lookup_removeAll d place fun q member => ?_
    rw [List.mem_singleton.1 member]
    exact unnamed

theorem clears_discard (files : Provisional) (grounded : d.Grounded)
    (noLinks : ∀ p ∈ files.paths, d.NamesNoLink p) :
    d.Clears (files.discard d).2 files.paths :=
  grounded.clears_removeAll noLinks

/-- A file is left where it was found, if no path in front of the first directory names it. -/
theorem hasFile_iff_of_clears {d' : Disk} {paths : List Path} (clears : d.Clears d' paths)
    (q : Path) :
    d'.hasFile q = true ↔ ∃ place content, d.find q = .ok (place, .file content) ∧
      ∀ p ∈ d.removable paths, ¬ d.Names p place := by
  rw [hasFile_iff]
  constructor
  · rintro ⟨place, content, found⟩
    have held := lookup_of_find found
    have unnamed : ∀ p ∈ d.removable paths, ¬ d.Names p place := by
      intro p member names
      rw [clears.gone p member place names] at held
      cases held
    rw [clears.left place unnamed] at held
    exact ⟨place, content, clears.layout.symm.find found held, unnamed⟩
  · rintro ⟨place, content, found, unnamed⟩
    have held := lookup_of_find found
    rw [← clears.left place unnamed] at held
    exact ⟨place, content, clears.layout.find found held⟩

/-- The paths in front of the first directory are in front of every directory. -/
theorem mem_of_mem_removable {front back : List Path} {q : Path} (there : d.hasDirectory p = true)
    (member : q ∈ d.removable (front ++ p :: back)) : q ∈ front := by
  induction front with
  | nil =>
      rw [List.nil_append, removable_cons_of_hasDirectory back there] at member
      cases member
  | cons first front ih =>
      cases directory : d.hasDirectory first with
      | true =>
          rw [List.cons_append, removable_cons_of_hasDirectory _ directory] at member
          cases member
      | false =>
          rw [List.cons_append, removable_cons _ directory] at member
          rcases List.mem_cons.1 member with rfl | later
          · exact List.mem_cons_self
          · exact List.mem_cons_of_mem first (ih later)

/-- A path is in front of the first directory, or it is this directory, or it stands behind it. -/
theorem removable_or_split {paths : List Path} {q : Path} (member : q ∈ paths) :
    q ∈ d.removable paths ∨ ∃ p back, paths = d.removable paths ++ p :: back ∧
      d.hasDirectory p = true ∧ q ∈ p :: back := by
  induction paths with
  | nil => cases member
  | cons first paths ih =>
      cases directory : d.hasDirectory first with
      | true =>
          rw [removable_cons_of_hasDirectory paths directory]
          exact .inr ⟨first, paths, rfl, directory, member⟩
      | false =>
          rw [removable_cons paths directory]
          rcases List.mem_cons.1 member with rfl | later
          · exact .inl List.mem_cons_self
          · rcases ih later with inFront | ⟨p, back, split, there, behind⟩
            · exact .inl (List.mem_cons_of_mem first inFront)
            · exact .inr ⟨p, back, congrArg (first :: ·) split, there, behind⟩

/-- **What is left when provisional files are discarded.**  Whatever no path names stays as it is.
If no path names a link, all files are gone exactly if every file that stands behind a directory
is also named in front of it. -/
theorem discard_clears_iff (files : Provisional) (d : Disk) :
    (∀ place, (∀ p ∈ files.paths, ¬ d.Names p place) →
      (files.discard d).2.lookup place = d.lookup place) ∧
    (d.Grounded → (∀ p ∈ files.paths, d.NamesNoLink p) →
      ((∀ p ∈ files.paths, (files.discard d).2.hasFile p = false) ↔
        ∀ front p back, files.paths = front ++ p :: back → d.hasDirectory p = true →
          ∀ q ∈ back, d.hasFile q = true → ∃ p' ∈ front, d.find p' = d.find q)) := by
  refine ⟨lookup_removeAll d, fun grounded noLinks => ?_⟩
  have left := hasFile_iff_of_clears (files.clears_discard grounded noLinks)
  constructor
  · intro gone front p back split directory q behind there
    have member : q ∈ files.paths := by
      rw [split]
      exact List.mem_append_right front (List.mem_cons_of_mem p behind)
    obtain ⟨place, content, found⟩ := hasFile_iff.1 there
    -- the file is not left, so a path in front of the first directory names it
    have named : ∃ p' ∈ d.removable files.paths, d.Names p' place := by
      by_contra unnamed
      have stays := (left q).2 ⟨place, content, found, fun p' member' names =>
        unnamed ⟨p', member', names⟩⟩
      rw [gone q member] at stays
      cases stays
    obtain ⟨p', member', names⟩ := named
    have inPaths : p' ∈ files.paths := (List.takeWhile_sublist _).subset member'
    rw [split] at member'
    refine ⟨p', mem_of_mem_removable directory member', ?_⟩
    rw [found, find_of_names (noLinks p' inPaths) names (lookup_of_find found)]
  · intro shielded q member
    by_contra stays
    obtain ⟨place, content, found, unnamed⟩ := (left q).1 (by simpa using stays)
    have own := grounded.names_of_find (noLinks q member) found nofun
    rcases removable_or_split (d := d) member with inFront | ⟨p, back, split, directory, behind⟩
    · exact unnamed q inFront own
    · rcases List.mem_cons.1 behind with rfl | behind
      · rw [hasDirectory_eq_false_of_find found nofun] at directory
        cases directory
      · obtain ⟨p', inFront, same⟩ := shielded _ p back split directory q behind
          (hasFile_iff.2 ⟨place, content, found⟩)
        have inPaths : p' ∈ files.paths := (List.takeWhile_sublist _).subset inFront
        rw [found] at same
        exact unnamed p' inFront (grounded.names_of_find (noLinks p' inPaths) same nofun)

/-- A disk on which there are a directory and a file. -/
def shelf : Disk :=
  ((Disk.empty ["work"]).put ["work", "out"] .directory).put ["work", "a.jpg"]
    (.file (.text "frame"))

theorem grounded_shelf : shelf.Grounded :=
  ((grounded_empty ["work"]).put_directory rfl (by decide)).put_file rfl (by decide) _

theorem namesNoLink_shelf (p : Path) : shelf.NamesNoLink p := by
  intro place target _ linked
  rw [shelf, lookup_put _ (by decide)] at linked
  split at linked
  · cases linked
  · rw [lookup_put _ (by decide)] at linked
    split at linked
    · cases linked
    · cases eq_directory_of_lookup_empty linked

/-- A file that is named on both sides of a directory is gone, and the directory stays. -/
theorem discard_clears_shelf :
    let files : Provisional := ⟨[⟨"a.jpg"⟩, ⟨"out"⟩, ⟨"./a.jpg"⟩]⟩
    shelf.hasFile ⟨"a.jpg"⟩ = true ∧
    (∀ p ∈ files.paths, (files.discard shelf).2.hasFile p = false) ∧
    (files.discard shelf).2.lookup ["work"] = some .directory := by
  intro files
  obtain ⟨stays, gone⟩ := discard_clears_iff files shelf
  refine ⟨by decide +kernel, ?_, ?_⟩
  · refine (gone grounded_shelf fun p _ => namesNoLink_shelf p).2 ?_
    intro front p back split directory q behind _
    -- only the second path leads to a directory, and the other two lead to the same file
    rcases front with _ | ⟨first, _ | ⟨second, _ | ⟨third, front⟩⟩⟩
    · cases split
      have other : shelf.hasDirectory ⟨"a.jpg"⟩ = false := by decide +kernel
      rw [other] at directory
      cases directory
    · cases split
      rw [List.mem_singleton.1 behind]
      exact ⟨_, List.mem_cons_self, by rfl⟩
    · cases split
      cases behind
    · simp [files] at split
  · rw [stays ["work"]]
    · rfl
    · intro p member names
      have deep : ∀ p ∈ files.paths, shelf.newPlace p .isDirectory ≠ .ok ["work"] := by
        decide +kernel
      exact deep p member names.1

/-- A file behind a directory is left, although it can be removed. -/
theorem directory_shields_file :
    let files : Provisional := ⟨[⟨"out"⟩, ⟨"a.jpg"⟩]⟩
    (shelf.removeFile ⟨"out"⟩).toOption.isNone = true ∧
    (shelf.removeFile ⟨"a.jpg"⟩).toOption.isSome = true ∧
    ¬ ∀ p ∈ files.paths, (files.discard shelf).2.hasFile p = false := by
  decide +kernel

end Slidecast.Files.Provisional
