import Slidecast.Proofs.Files.Walk

/-!
# Touching a single file

A path names the place at which its last name stands.  If a link is there, the path leads to the
place that the link leads to, and otherwise to the place that it names.  A file is written where its
path leads (`write_eq_ok_iff`): in place of another one, or where nothing is in a directory, or a
device takes it.

An operation touches only the file at a path if it leaves every place alone but those of the path,
and has made, changed or removed a file there if it has changed anything.  Writing a file touches
only this file.
-/

set_option autoImplicit false

namespace Slidecast.Files

/-- Nothing, or a file. -/
def VacantOrFile (held : Option Node) : Prop := held = none ∨ ∃ content, held = some (.file content)

namespace Disk

variable {d d' : Disk} {p : Path} {place : Place}

/-! ## The places of a path -/

/-- A path names a place: its last name stands there, and the path does not ask for a directory. -/
def Names (d : Disk) (p : Path) (place : Place) : Prop :=
  d.newPlace p .isDirectory = .ok place ∧ p.endsWithSlash = false

/-- A path leads to a place: what its last name stands for is there. -/
def LeadsTo (d : Disk) (p : Path) (place : Place) : Prop :=
  ∃ own, d.Names p own ∧ place = d.resolve own

/-- The places of a path: where its last name stands, and where a link at this place leads. -/
def IsPlaceOf (d : Disk) (p : Path) (place : Place) : Prop :=
  ∃ own, d.newPlace p .isDirectory = .ok own ∧ (place = own ∨ place = d.resolve own)

theorem Names.isPlaceOf (names : d.Names p place) : d.IsPlaceOf p place :=
  ⟨place, names.1, .inl rfl⟩

theorem LeadsTo.isPlaceOf (leads : d.LeadsTo p place) : d.IsPlaceOf p place := by
  obtain ⟨own, names, same⟩ := leads
  exact ⟨own, names.1, .inr same⟩

theorem Names.unique {other : Place} (names : d.Names p place) (names' : d.Names p other) :
    place = other := by
  have same := names.1.symm.trans names'.1
  exact Except.ok.inj same

theorem LeadsTo.unique {other : Place} (leads : d.LeadsTo p place) (leads' : d.LeadsTo p other) :
    place = other := by
  obtain ⟨own, names, rfl⟩ := leads
  obtain ⟨own', names', rfl⟩ := leads'
  rw [names.unique names']

theorem isPlaceOf_iff :
    d.IsPlaceOf p place ↔ ∃ own ∈ (d.newPlace p .isDirectory).toOption,
      place = own ∨ place = d.resolve own :=
  exists_congr fun _ => and_congr_left' toOption_eq_some_iff.symm

instance (d : Disk) (p : Path) (place : Place) : Decidable (d.Names p place) :=
  inferInstanceAs (Decidable (_ ∧ _))

instance (d : Disk) (p : Path) (place : Place) : Decidable (d.IsPlaceOf p place) :=
  decidable_of_iff _ isPlaceOf_iff.symm

/-! ## Writing -/

/-- A file can be kept at a place: there is one, or there is nothing, in a directory. -/
def TakesFile (d : Disk) (place : Place) : Prop :=
  (∃ content, d.lookup place = some (.file content)) ∨
    (d.lookup place = none ∧ d.lookup place.dropLast = some .directory)

theorem TakesFile.vacantOrFile (takes : d.TakesFile place) : VacantOrFile (d.lookup place) := by
  rcases takes with file | ⟨vacant, _⟩
  · exact .inr file
  · exact .inl vacant

theorem TakesFile.ne_nil (takes : d.TakesFile place) : place ≠ [] := by
  rintro rfl
  rcases takes with ⟨content, held⟩ | ⟨vacant, _⟩
  · cases held
  · cases vacant

/-- **What is written is where the path leads**, unless a device takes it. -/
theorem write_eq_ok_iff {content : Content} :
    d.write p content = .ok d' ↔
      ∃ place, d.LeadsTo p place ∧
        ((∃ device, d.lookup place = some (.device device) ∧ device.accepts = .ok () ∧ d' = d) ∨
          (d.TakesFile place ∧ d' = d.put place (.file content))) := by
  unfold write
  rw [bind_eq_ok]
  constructor
  · rintro ⟨own, created, wrote⟩
    split at wrote
    · cases wrote
    next noSlash =>
      refine ⟨d.resolve own, ⟨own, ⟨created, by simpa using noSlash⟩, rfl⟩, ?_⟩
      dsimp only at wrote
      split at wrote
      · cases wrote
      · cases wrote
      next device held =>
        obtain ⟨_, accepts, same⟩ := bind_eq_ok.1 wrote
        cases same
        exact .inl ⟨device, held, accepts, rfl⟩
      next old held =>
        cases wrote
        exact .inr ⟨.inl ⟨old, held⟩, rfl⟩
      next vacant =>
        obtain ⟨_, entered, same⟩ := bind_eq_ok.1 wrote
        cases same
        exact .inr ⟨.inr ⟨vacant, enterPlace_eq_ok_iff.1 entered⟩, rfl⟩
  · rintro ⟨place, ⟨own, ⟨created, noSlash⟩, rfl⟩, written⟩
    refine ⟨own, created, ?_⟩
    rw [noSlash, if_neg Bool.false_ne_true]
    dsimp only
    rcases written with ⟨device, held, accepts, rfl⟩ | ⟨⟨old, held⟩ | ⟨vacant, entered⟩, rfl⟩
    · rw [held]
      exact bind_eq_ok.2 ⟨(), accepts, rfl⟩
    · rw [held]
    · rw [vacant]
      exact bind_eq_ok.2 ⟨(), enterPlace_eq_ok_iff.2 entered, rfl⟩

/-- Writing a file does not change in which directory relative paths start. -/
theorem working_of_write {content : Content} (wrote : d.write p content = .ok d') :
    d'.working = d.working := by
  obtain ⟨place, _, ⟨_, _, _, rfl⟩ | ⟨_, rfl⟩⟩ := write_eq_ok_iff.1 wrote
  · rfl
  · rfl

/-! ## Touching -/

/-- Between the first disk and the second, no more than the file at a path has been touched. -/
def TouchesOnly (d d' : Disk) (p : Path) : Prop :=
  ∀ place, d'.lookup place = d.lookup place ∨
    (d.IsPlaceOf p place ∧ VacantOrFile (d'.lookup place))

theorem TouchesOnly.refl (d : Disk) (p : Path) : d.TouchesOnly d p := fun _ => .inl rfl

theorem touchesOnly_write {content : Content} (wrote : d.write p content = .ok d') :
    d.TouchesOnly d' p := by
  obtain ⟨place, leads, ⟨_, _, _, rfl⟩ | ⟨takes, rfl⟩⟩ := write_eq_ok_iff.1 wrote
  · exact .refl d' p
  · intro other
    rw [lookup_put d takes.ne_nil]
    by_cases same : other = place
    · subst same
      exact .inr ⟨leads.isPlaceOf, .inr ⟨content, if_pos rfl⟩⟩
    · exact .inl (if_neg same)

end Disk

end Slidecast.Files
