import Mathlib.Data.List.Basic
import Slidecast.Files.Disk
import Slidecast.Proofs.Sequence

/-!
# Where paths lead

A walk is told by places alone: `walkPlaces` follows the segments of a path through what the disk
shows at each place, and `find_eq` and `newPlace_eq` say that this is how paths are found.

A disk keeps another one if whatever exists there exists here, and is the same.  The walk to
something that exists passes only through directories and links that exist, so it ends at the
same place on every disk that keeps the first (`find_of_keeps`).
-/

set_option autoImplicit false

namespace Slidecast

/-- The last segment of a path is a name, neither a dot nor a double dot. -/
def Path.EndsInName (p : Path) : Prop :=
  ∃ last, p.segments.getLast? = some last ∧ ¬ (last = "." ∨ last = "..")

namespace Files

namespace Disk

/-! ## Walks by places -/

/-- The place that is reached from a place by one step. -/
def stepPlace (d : Disk) (place : Place) (segment : String) : Except Fault Place := do
  d.enterPlace place
  if segment = "." then .ok place
  else if segment = ".." then .ok place.dropLast
  else if isTooLong segment then .error .nameTooLong
  else .ok (d.resolve (place ++ [segment]))

/-- The place that is reached by a row of steps. -/
def walkPlaces (d : Disk) (segments : List String) (place : Place) : Except Fault Place :=
  segments.foldlM d.stepPlace place

/-- The place where the walk of a path starts. -/
def startPlace (d : Disk) (p : Path) : Except Fault Place := (d.start p).map Spot.place

variable {d d' : Disk}

theorem enter_eq {s : Spot} (isOn : s.IsOn d) : s.enter = d.enterPlace s.place := by
  have there := lookup_place isOn
  unfold Spot.enter enterPlace
  cases held : s.node? with
  | none => simp [there, held]
  | some node =>
      rw [held] at there
      cases node <;> simp [there]

theorem place_follow {s : Spot} (isOn : s.IsOn d) : (d.follow s).place = d.resolve s.place := by
  unfold follow resolve
  rw [lookup_place isOn]
  cases s.node? with
  | none => rfl
  | some node =>
      cases node with
      | link target => simp [spot, Spot.place]
      | file content => rfl
      | device device => rfl
      | directory => rfl

/-- A step on spots is a step on their places. -/
theorem map_step {s : Spot} (isOn : s.IsOn d) (segment : String) :
    (d.step s segment).map Spot.place = d.stepPlace s.place segment := by
  unfold step stepPlace
  rw [enter_eq isOn]
  cases d.enterPlace s.place with
  | error fault => rfl
  | ok =>
      simp only [bind, Except.bind]
      split
      · rfl
      · split
        · simp [Except.map, spot, Spot.place]
        · split
          · rfl
          · have next : (Spot.mk (segment :: s.trail) (s.part.branch segment)).IsOn d := by
              simp only [Spot.IsOn, Spot.place, List.reverse_cons, Trie.part_append]
              rw [isOn]
              rfl
            simp only [Except.map, place_follow next]
            simp [Spot.place]

/-- A walk on spots is a walk on their places. -/
theorem map_walk {s : Spot} (isOn : s.IsOn d) (segments : List String) :
    (d.walk segments s).map Spot.place = d.walkPlaces segments s.place := by
  induction segments generalizing s with
  | nil => rfl
  | cons segment segments ih =>
      have first := map_step isOn segment
      simp only [walk, walkPlaces, List.foldlM_cons]
      rw [← first]
      cases stepped : d.step s segment with
      | error fault => rfl
      | ok next => exact ih (isOn_step isOn stepped)

theorem walkPlaces_append (front back : List String) (place : Place) :
    d.walkPlaces (front ++ back) place =
      d.walkPlaces front place >>= fun between => d.walkPlaces back between :=
  List.foldlM_append

@[simp] theorem walkPlaces_nil (place : Place) : d.walkPlaces [] place = .ok place := rfl

@[simp] theorem walkPlaces_cons (segment : String) (segments : List String) (place : Place) :
    d.walkPlaces (segment :: segments) place =
      d.stepPlace place segment >>= fun next => d.walkPlaces segments next :=
  List.foldlM_cons

/-- What a path leads to is told by places. -/
theorem find_eq (d : Disk) (p : Path) :
    d.find p = (do
      let place ← d.walkPlaces (steps p) (← d.startPlace p)
      match d.lookup place with
      | none => .error .noEntry
      | some node => .ok (place, node)) := by
  unfold find startPlace
  cases started : d.start p with
  | error fault => rfl
  | ok s =>
      simp only [Except.map, bind, Except.bind]
      have isOn := isOn_start started
      rw [← map_walk isOn]
      cases walked : d.walk (steps p) s with
      | error fault => rfl
      | ok s' =>
          have there := lookup_place (isOn_walk isOn walked)
          cases held : s'.node? with
          | none => simp [Except.map, there, held]
          | some node => simp [Except.map, there, held]

/-- Where a name is created is told by places. -/
theorem newPlace_eq (d : Disk) (p : Path) (onDots : Fault) :
    d.newPlace p onDots = (do
      let start ← d.startPlace p
      match p.segments.getLast? with
      | none => .error onDots
      | some last =>
          let directory ← d.walkPlaces p.segments.dropLast start
          d.enterPlace directory
          if last = "." ∨ last = ".." then .error onDots
          else if isTooLong last then .error .nameTooLong
          else .ok (directory ++ [last])) := by
  unfold newPlace startPlace
  cases started : d.start p with
  | error fault => rfl
  | ok s =>
      simp only [Except.map, bind, Except.bind]
      cases p.segments.getLast? with
      | none => rfl
      | some last =>
          have isOn := isOn_start started
          simp only []
          rw [← map_walk isOn]
          cases walked : d.walk p.segments.dropLast s with
          | error fault => rfl
          | ok s' => simp only [Except.map, enter_eq (isOn_walk isOn walked)]

/-! ## Disks that keep what exists -/

/-- Whatever exists on the first disk is the same on the second. -/
def Keeps (d d' : Disk) : Prop :=
  ∀ place node, d.lookup place = some node → d'.lookup place = some node

theorem Keeps.refl (d : Disk) : d.Keeps d := fun _ _ held => held

theorem Keeps.trans {d'' : Disk} (first : d.Keeps d') (second : d'.Keeps d'') : d.Keeps d'' :=
  fun place node held => second place node (first place node held)

theorem enterPlace_eq_ok_iff {place : Place} :
    d.enterPlace place = .ok () ↔ d.lookup place = some .directory := by
  unfold enterPlace
  split <;> simp_all

theorem resolve_of_ne_link {place : Place}
    (noLink : ∀ target, d.lookup place ≠ some (.link target)) : d.resolve place = place := by
  unfold resolve
  split
  · next target held => exact absurd held (noLink target)
  · rfl

/-- A step starts in a directory. -/
theorem lookup_of_stepPlace {place next : Place} {segment : String}
    (stepped : d.stepPlace place segment = .ok next) : d.lookup place = some .directory := by
  obtain ⟨_, entered, _⟩ := bind_eq_ok.1 stepped
  exact enterPlace_eq_ok_iff.1 entered

/-- A walk that ends where something exists has started where something exists. -/
theorem exists_of_walkPlaces {segments : List String} {place goal : Place} {node : Node}
    (walked : d.walkPlaces segments place = .ok goal) (held : d.lookup goal = some node) :
    ∃ first, d.lookup place = some first := by
  cases segments with
  | nil =>
      cases walked
      exact ⟨node, held⟩
  | cons segment segments =>
      rw [walkPlaces_cons] at walked
      obtain ⟨next, stepped, _⟩ := bind_eq_ok.1 walked
      exact ⟨.directory, lookup_of_stepPlace stepped⟩

/-- A dot stays in the directory. -/
theorem stepPlace_dot {place : Place} (held : d.lookup place = some .directory) :
    d.stepPlace place "." = .ok place :=
  bind_eq_ok.2 ⟨(), enterPlace_eq_ok_iff.2 held, if_pos rfl⟩

/-- A name leads from a directory to what it stands for there, unless it is too long. -/
theorem stepPlace_name_eq_ok_iff {place next : Place} {name : String}
    (plain : ¬ (name = "." ∨ name = "..")) :
    d.stepPlace place name = .ok next ↔
      d.lookup place = some .directory ∧ isTooLong name = false ∧
        next = d.resolve (place ++ [name]) := by
  have noDot : name ≠ "." := fun dot => plain (.inl dot)
  have noUp : name ≠ ".." := fun up => plain (.inr up)
  unfold stepPlace
  rw [if_neg noDot, if_neg noUp]
  constructor
  · intro stepped
    obtain ⟨_, entered, named⟩ := bind_eq_ok.1 stepped
    split at named
    · cases named
    · next short =>
        cases named
        exact ⟨enterPlace_eq_ok_iff.1 entered, by simpa using short, rfl⟩
  · rintro ⟨held, short, rfl⟩
    refine bind_eq_ok.2 ⟨(), enterPlace_eq_ok_iff.2 held, ?_⟩
    rw [short]
    rfl

/-- A place that stands for something stands for the same on every disk that keeps it. -/
theorem resolve_of_keeps (keeps : d.Keeps d') {place : Place} {node : Node}
    (held : d.lookup (d.resolve place) = some node) : d'.resolve place = d.resolve place := by
  cases here : d.lookup place with
  | none =>
      have self : d.resolve place = place := resolve_of_ne_link (by simp [here])
      rw [self, here] at held
      cases held
  | some other =>
      unfold resolve
      rw [here, keeps _ _ here]

theorem stepPlace_of_keeps (keeps : d.Keeps d') {place next : Place} {segment : String}
    {node : Node} (stepped : d.stepPlace place segment = .ok next)
    (held : d.lookup next = some node) : d'.stepPlace place segment = .ok next := by
  have directory := lookup_of_stepPlace stepped
  have entered : d'.enterPlace place = .ok () := enterPlace_eq_ok_iff.2 (keeps _ _ directory)
  by_cases plain : segment = "." ∨ segment = ".."
  · obtain ⟨_, _, named⟩ := bind_eq_ok.1 stepped
    refine bind_eq_ok.2 ⟨(), entered, ?_⟩
    rcases plain with rfl | rfl
    · exact named
    · exact named
  · obtain ⟨_, short, rfl⟩ := (stepPlace_name_eq_ok_iff plain).1 stepped
    exact (stepPlace_name_eq_ok_iff plain).2
      ⟨keeps _ _ directory, short, (resolve_of_keeps keeps held).symm⟩

theorem walkPlaces_of_keeps (keeps : d.Keeps d') {segments : List String} {place goal : Place}
    {node : Node} (walked : d.walkPlaces segments place = .ok goal)
    (held : d.lookup goal = some node) : d'.walkPlaces segments place = .ok goal := by
  induction segments generalizing place with
  | nil => exact walked
  | cons segment segments ih =>
      rw [walkPlaces_cons] at walked ⊢
      obtain ⟨next, stepped, rest⟩ := bind_eq_ok.1 walked
      obtain ⟨first, heldNext⟩ := exists_of_walkPlaces rest held
      exact bind_eq_ok.2 ⟨next, stepPlace_of_keeps keeps stepped heldNext, ih rest⟩

/-- The walk of an absolute path starts at the root of any disk. -/
theorem startPlace_of_isAbsolute {p : Path} (absolute : p.isAbsolute = true) (d d' : Disk) :
    d.startPlace p = d'.startPlace p := by
  unfold startPlace start
  simp only [absolute, if_true]
  split
  · rfl
  · split
    · rfl
    · split
      · rfl
      · simp [Except.map, spot, Spot.place]

theorem start_eq_nil {p : Path} (absolute : p.isAbsolute = true) {start : Place}
    (started : d.startPlace p = .ok start) : start = [] := by
  unfold startPlace Disk.start at started
  split at started
  · cases started
  · split at started
    · cases started
    · split at started
      · cases started
      · simpa [absolute, Except.map, spot, Spot.place] using started.symm

theorem find_eq_ok_iff {p : Path} {place : Place} {node : Node} :
    d.find p = .ok (place, node) ↔
      ∃ start, d.startPlace p = .ok start ∧ d.walkPlaces (steps p) start = .ok place ∧
        d.lookup place = some node := by
  rw [find_eq]
  constructor
  · intro found
    obtain ⟨start, started, found⟩ := bind_eq_ok.1 found
    obtain ⟨goal, walked, found⟩ := bind_eq_ok.1 found
    cases held : d.lookup goal with
    | none => simp [held] at found
    | some other =>
        rw [held] at found
        cases found
        exact ⟨start, started, walked, held⟩
  · rintro ⟨start, started, walked, held⟩
    refine bind_eq_ok.2 ⟨start, started, bind_eq_ok.2 ⟨place, walked, ?_⟩⟩
    rw [held]

/-- **What is found stays found.**  An absolute path that leads to something leads to the same
on every disk that keeps what exists. -/
theorem find_of_keeps (keeps : d.Keeps d') {p : Path} (absolute : p.isAbsolute = true)
    {place : Place} {node : Node} (found : d.find p = .ok (place, node)) :
    d'.find p = .ok (place, node) := by
  obtain ⟨start, started, walked, held⟩ := find_eq_ok_iff.1 found
  rw [startPlace_of_isAbsolute absolute d d'] at started
  exact find_eq_ok_iff.2
    ⟨start, started, walkPlaces_of_keeps keeps walked held, keeps _ _ held⟩

/-- The segments of an absolute path lead to the directory that the path leads to. -/
theorem walkPlaces_segments_of_find {p : Path} (absolute : p.isAbsolute = true) {place : Place}
    (found : d.find p = .ok (place, .directory)) :
    d.walkPlaces p.segments [] = .ok place := by
  obtain ⟨start, started, walked, held⟩ := find_eq_ok_iff.1 found
  rw [start_eq_nil absolute started] at walked
  unfold steps at walked
  split at walked
  · rw [walkPlaces_append] at walked
    obtain ⟨next, walked, last⟩ := bind_eq_ok.1 walked
    rw [walkPlaces_cons] at last
    obtain ⟨same, stepped, last⟩ := bind_eq_ok.1 last
    rw [stepPlace_dot (lookup_of_stepPlace stepped)] at stepped
    cases stepped
    cases last
    exact walked
  · exact walked

/-! ## The place of a name -/

/-- A name is created in a directory, and it is neither a dot nor too long. -/
theorem newPlace_eq_ok_iff {p : Path} {onDots : Fault} {place : Place} :
    d.newPlace p onDots = .ok place ↔
      ∃ start directory last, d.startPlace p = .ok start ∧ p.segments.getLast? = some last ∧
        d.walkPlaces p.segments.dropLast start = .ok directory ∧
        d.lookup directory = some .directory ∧ ¬ (last = "." ∨ last = "..") ∧
        isTooLong last = false ∧ place = directory ++ [last] := by
  rw [newPlace_eq]
  constructor
  · intro created
    obtain ⟨start, started, created⟩ := bind_eq_ok.1 created
    cases named : p.segments.getLast? with
    | none => simp [named] at created
    | some last =>
        rw [named] at created
        obtain ⟨directory, walked, created⟩ := bind_eq_ok.1 created
        obtain ⟨_, entered, created⟩ := bind_eq_ok.1 created
        split at created
        · cases created
        · next plain =>
            split at created
            · cases created
            · next short =>
                cases created
                exact ⟨start, directory, last, started, rfl, walked,
                  enterPlace_eq_ok_iff.1 entered, plain, by simpa using short, rfl⟩
  · rintro ⟨start, directory, last, started, named, walked, held, plain, short, rfl⟩
    refine bind_eq_ok.2 ⟨start, started, ?_⟩
    rw [named]
    refine bind_eq_ok.2 ⟨directory, walked, ?_⟩
    refine bind_eq_ok.2 ⟨(), enterPlace_eq_ok_iff.2 held, ?_⟩
    simp [plain, short]

theorem newPlace_of_keeps (keeps : d.Keeps d') {p : Path} (absolute : p.isAbsolute = true)
    {onDots : Fault} {place : Place} (created : d.newPlace p onDots = .ok place) :
    d'.newPlace p onDots = .ok place := by
  obtain ⟨start, directory, last, started, named, walked, held, rest⟩ :=
    newPlace_eq_ok_iff.1 created
  rw [startPlace_of_isAbsolute absolute d d'] at started
  exact newPlace_eq_ok_iff.2 ⟨start, directory, last, started, named,
    walkPlaces_of_keeps keeps walked held, keeps _ _ held, rest⟩

theorem ne_nil_of_newPlace {p : Path} {onDots : Fault} {place : Place}
    (created : d.newPlace p onDots = .ok place) : place ≠ [] := by
  obtain ⟨_, directory, last, _, _, _, _, _, _, rfl⟩ := newPlace_eq_ok_iff.1 created
  simp

theorem segments_eq_of_getLast? {p : Path} {last : String}
    (named : p.segments.getLast? = some last) :
    p.segments = p.segments.dropLast ++ [last] := by
  have member : last ∈ p.segments.getLast? := named
  exact (List.dropLast_append_getLast? last member).symm

theorem steps_eq_of_getLast? {p : Path} {last : String} (named : p.segments.getLast? = some last) :
    steps p = p.segments.dropLast ++ last :: if p.endsWithSlash then ["."] else [] := by
  unfold steps
  rw [segments_eq_of_getLast? named]
  split <;> simp

/-- What exists at the place of a name is found under that name, unless it is a link; a separator
at the end asks for a directory. -/
theorem find_of_newPlace {p : Path} {onDots : Fault} {place : Place} {node : Node}
    (created : d.newPlace p onDots = .ok place) (held : d.lookup place = some node)
    (noLink : ∀ target, node ≠ .link target)
    (ended : node = .directory ∨ p.endsWithSlash = false) :
    d.find p = .ok (place, node) := by
  obtain ⟨start, directory, last, started, named, walked, entered, plain, short, rfl⟩ :=
    newPlace_eq_ok_iff.1 created
  have self : d.resolve (directory ++ [last]) = directory ++ [last] := by
    refine resolve_of_ne_link fun target linked => noLink target ?_
    rw [held] at linked
    exact Option.some.inj linked
  have stepped : d.stepPlace directory last = .ok (directory ++ [last]) :=
    (stepPlace_name_eq_ok_iff plain).2 ⟨entered, short, self.symm⟩
  have whole : d.walkPlaces p.segments start = .ok (directory ++ [last]) := by
    rw [segments_eq_of_getLast? named, walkPlaces_append, walked]
    simp [bind, Except.bind, stepped]
  refine find_eq_ok_iff.2 ⟨start, started, ?_, held⟩
  unfold steps
  split
  · next slash =>
      have isDirectory : node = .directory := by
        rcases ended with isDirectory | noSlash
        · exact isDirectory
        · rw [slash] at noSlash
          cases noSlash
      rw [isDirectory] at held
      rw [walkPlaces_append, whole]
      simp [bind, Except.bind, stepPlace_dot held]
  · exact whole

/-- A path leads through a directory to its last name. -/
theorem exists_newPlace_of_find {p : Path} {place : Place} {node : Node}
    (found : d.find p = .ok (place, node)) (ends : p.EndsInName) (onDots : Fault) :
    ∃ own other, d.newPlace p onDots = .ok own ∧ d.lookup own = some other := by
  obtain ⟨last, named, plain⟩ := ends
  obtain ⟨start, started, walked, held⟩ := find_eq_ok_iff.1 found
  rw [steps_eq_of_getLast? named, walkPlaces_append] at walked
  obtain ⟨directory, front, walked⟩ := bind_eq_ok.1 walked
  rw [walkPlaces_cons] at walked
  obtain ⟨next, stepped, back⟩ := bind_eq_ok.1 walked
  obtain ⟨entered, short, rfl⟩ := (stepPlace_name_eq_ok_iff plain).1 stepped
  obtain ⟨reached, heldNext⟩ := exists_of_walkPlaces back held
  have created : d.newPlace p onDots = .ok (directory ++ [last]) :=
    newPlace_eq_ok_iff.2 ⟨start, directory, last, started, named, front, entered, plain,
      short, rfl⟩
  -- a name at which nothing exists stands for itself, but what it stands for exists
  cases own : d.lookup (directory ++ [last]) with
  | some other => exact ⟨_, other, created, own⟩
  | none =>
      rw [resolve_of_ne_link (by simp [own]), own] at heldNext
      cases heldNext

/-- Where a path leads to something, its last name has a place at which something exists, or it
is no name. -/
theorem newPlace_of_find {p : Path} {place : Place} {node : Node}
    (found : d.find p = .ok (place, node)) (onDots : Fault) :
    (∃ own other, d.newPlace p onDots = .ok own ∧ d.lookup own = some other) ∨
      d.newPlace p onDots = .error onDots := by
  by_cases ends : p.EndsInName
  · exact .inl (exists_newPlace_of_find found ends onDots)
  right
  obtain ⟨start, started, walked, _⟩ := find_eq_ok_iff.1 found
  rw [newPlace_eq, started]
  simp only [bind, Except.bind]
  cases named : p.segments.getLast? with
  | none => rfl
  | some last =>
      have dots : last = "." ∨ last = ".." := by
        by_contra plain
        exact ends ⟨last, named, plain⟩
      rw [steps_eq_of_getLast? named, walkPlaces_append] at walked
      obtain ⟨directory, front, walked⟩ := bind_eq_ok.1 walked
      rw [walkPlaces_cons] at walked
      obtain ⟨next, stepped, _⟩ := bind_eq_ok.1 walked
      simp [front, enterPlace_eq_ok_iff.2 (lookup_of_stepPlace stepped), dots]

end Disk

end Files

end Slidecast
