import Slidecast.Proofs.Files.Paths
import Slidecast.Proofs.Files.Walk

/-!
# Making directories

A directory is made together with the directories above it, one at a time (`MakesAbove`).  What
existed stays, and whatever is new is a directory that a path above leads to, also when the last
one is refused.  A directory that exists is left as it is (`provideDirectory_of_find`).

A name is unused if no place on the disk has it.  No path with an unused name leads anywhere, and
directories whose paths do not have the name leave it unused.
-/

set_option autoImplicit false

namespace Slidecast.Files.Disk

open Slidecast.Path

variable {d d' : Disk} {p : Path}

/-! ## One directory -/

theorem keeps_put {place : Place} (nonempty : place ≠ []) (vacant : d.lookup place = none)
    (node : Node) : d.Keeps (d.put place node) := by
  intro other held there
  rw [lookup_put d nonempty]
  by_cases same : other = place
  · subst same
    rw [vacant] at there
    cases there
  · rw [if_neg same]
    exact there

theorem makeDirectory_eq_ok_iff :
    d.makeDirectory p = .ok d' ↔
      ∃ place, d.newPlace p .exists = .ok place ∧ d.lookup place = none ∧
        d' = d.put place .directory := by
  unfold makeDirectory
  constructor
  · intro made
    obtain ⟨place, created, made⟩ := bind_eq_ok.1 made
    split at made
    · cases made
    · next vacant =>
        cases made
        exact ⟨place, created, vacant, rfl⟩
  · rintro ⟨place, created, vacant, rfl⟩
    refine bind_eq_ok.2 ⟨place, created, ?_⟩
    rw [vacant]

theorem keeps_of_makeDirectory (made : d.makeDirectory p = .ok d') : d.Keeps d' := by
  obtain ⟨place, created, vacant, rfl⟩ := makeDirectory_eq_ok_iff.1 made
  exact keeps_put (ne_nil_of_newPlace created) vacant _

/-- What is new after a directory has been made is this directory. -/
theorem new_of_makeDirectory (absolute : p.isAbsolute = true)
    (made : d.makeDirectory p = .ok d') {place : Place} {node : Node}
    (held : d'.lookup place = some node) (vacant : d.lookup place = none) :
    node = .directory ∧ d'.find p = .ok (place, .directory) := by
  have keeps := keeps_of_makeDirectory made
  obtain ⟨own, created, _, rfl⟩ := makeDirectory_eq_ok_iff.1 made
  have nonempty := ne_nil_of_newPlace created
  by_cases same : place = own
  · subst same
    rw [lookup_put d nonempty, if_pos rfl] at held
    cases held
    have there : (d.put place .directory).lookup place = some .directory := by
      rw [lookup_put d nonempty, if_pos rfl]
    exact ⟨rfl, find_of_newPlace (newPlace_of_keeps keeps absolute created) there (by simp)
      (.inl rfl)⟩
  · rw [lookup_put d nonempty, if_neg same, vacant] at held
    cases held

/-! ## The directories above a path -/

/-- The second disk comes from the first by making directories above `p`, one at a time. -/
inductive MakesAbove (p : Path) : Disk → Disk → Prop where
  | nothing (d : Disk) : MakesAbove p d d
  | more {d d' d'' : Disk} {q : Path} : MakesAbove p d d' → IsAbove q p →
      d'.makeDirectory q = .ok d'' → MakesAbove p d d''

theorem MakesAbove.of_parent {parent : Path} (next : p.parent? = some parent)
    (made : MakesAbove parent d d') : MakesAbove p d d' := by
  induction made with
  | nothing => exact .nothing _
  | more _ above last ih => exact .more ih (.further next above) last

theorem MakesAbove.keeps (made : MakesAbove p d d') : d.Keeps d' := by
  induction made with
  | nothing => exact .refl _
  | more _ _ last ih => exact ih.trans (keeps_of_makeDirectory last)

/-- Whatever is new is a directory that a path above leads to. -/
theorem MakesAbove.new (made : MakesAbove p d d') (absolute : p.isAbsolute = true)
    {place : Place} {node : Node} (held : d'.lookup place = some node)
    (vacant : d.lookup place = none) :
    node = .directory ∧ ∃ q, IsAbove q p ∧ d'.find q = .ok (place, .directory) := by
  induction made with
  | nothing =>
      rw [vacant] at held
      cases held
  | more earlier above last ih =>
      rename_i middle _ q
      cases between : middle.lookup place with
      | none =>
          obtain ⟨isDirectory, found⟩ :=
            new_of_makeDirectory (above.isAbsolute absolute) last held between
          exact ⟨isDirectory, q, above, found⟩
      | some other =>
          have keeps := keeps_of_makeDirectory last
          have same : other = node := by
            have kept := keeps _ _ between
            rw [held] at kept
            exact (Option.some.inj kept).symm
          subst same
          obtain ⟨isDirectory, q', above', found⟩ := ih between
          exact ⟨isDirectory, q', above',
            find_of_keeps keeps (above'.isAbsolute absolute) found⟩

theorem hasDirectory_of_unlessDirectory {fault : Fault} (done : d.unlessDirectory p fault = .ok ()) :
    d.hasDirectory p = true := by
  unfold unlessDirectory at done
  split at done
  · assumption
  · cases done

/-- A directory is made after directories above it, or something refuses it after some of these
have been made. -/
theorem makeDirectories_cases (d : Disk) (p : Path) (above : Nat) :
    ∃ between, MakesAbove p d between ∧
      ((∃ d', between.makeDirectory p = .ok d' ∧ d.makeDirectories p above = (.ok (), d')) ∨
        ((d.makeDirectories p above).2 = between ∧
          ((d.makeDirectories p above).1 = .ok () →
            p.text = "" ∨ between.hasDirectory p = true))) := by
  induction above generalizing d p with
  | zero => exact ⟨d, .nothing d, .inr ⟨rfl, fun done => nomatch done⟩⟩
  | succ above ih =>
      unfold makeDirectories
      split
      · next empty => exact ⟨d, .nothing d, .inr ⟨rfl, fun _ => .inl (by simpa using empty)⟩⟩
      · split
        · next d' made => exact ⟨d, .nothing d, .inl ⟨d', made, rfl⟩⟩
        · split
          · exact ⟨d, .nothing d, .inr ⟨rfl, fun done => nomatch done⟩⟩
          · next parent next =>
              -- the directories above are made from those above the parent, and the parent
              have front : MakesAbove p d (d.makeDirectories parent above).2 := by
                obtain ⟨between, made, ⟨d', last, whole⟩ | ⟨whole, _⟩⟩ := ih d parent
                · rw [whole]
                  exact .more (made.of_parent next) (.parent next) last
                · rw [whole]
                  exact made.of_parent next
              split
              · next fault d' refused =>
                  rw [refused] at front
                  exact ⟨d', front, .inr ⟨rfl, fun done => nomatch done⟩⟩
              · next d' whole =>
                  rw [whole] at front
                  split
                  · next d'' made => exact ⟨d', front, .inl ⟨d'', made, rfl⟩⟩
                  · next fault refused =>
                      refine ⟨d', front, .inr ⟨rfl, fun done => .inr ?_⟩⟩
                      exact hasDirectory_of_unlessDirectory done
        · next fault _ _ =>
            refine ⟨d, .nothing d, .inr ⟨rfl, fun done => .inr ?_⟩⟩
            exact hasDirectory_of_unlessDirectory done

/-- A directory that is there cannot be made. -/
theorem makeDirectory_of_find {place : Place} (found : d.find p = .ok (place, .directory)) :
    d.makeDirectory p = .error .exists := by
  unfold makeDirectory
  rcases newPlace_of_find found .exists with ⟨own, other, created, held⟩ | refused
  · rw [created]
    simp [bind, Except.bind, held]
  · rw [refused]
    rfl

/-- A directory that exists is not made again. -/
theorem provideDirectory_of_find {place : Place} (found : d.find p = .ok (place, .directory)) :
    d.provideDirectory p = (.ok (), d) := by
  unfold provideDirectory makeDirectories
  split
  · rfl
  · rw [makeDirectory_of_find found]
    simp [unlessDirectory, hasDirectory, found]

/-! ## Unused names -/

/-- No place that holds anything has the name. -/
def Unused (d : Disk) (name : String) : Prop := ∀ place, name ∈ place → d.lookup place = none

theorem Unused.notMem {name : String} (unused : d.Unused name) {place : Place} {node : Node}
    (held : d.lookup place = some node) : name ∉ place := by
  intro member
  rw [unused place member] at held
  cases held

theorem Unused.put {name : String} (unused : d.Unused name) {place : Place} (nonempty : place ≠ [])
    (notMem : name ∉ place) (node : Node) : (d.put place node).Unused name := by
  intro other member
  rw [lookup_put d nonempty]
  split
  · next same =>
      rw [same] at member
      exact absurd member notMem
  · exact unused other member

theorem find?_foldl_insert (working : Place) (lengths : List Nat) (tree : Trie Node)
    (place : Place) :
    (lengths.foldl (fun tree n => tree.insert (working.take (n + 1)) Node.directory) tree).find?
        place =
      if ∃ n ∈ lengths, place = working.take (n + 1) then some .directory
      else tree.find? place := by
  induction lengths generalizing tree with
  | nil => simp
  | cons n lengths ih =>
      rw [List.foldl_cons, ih, Trie.find?_insert]
      by_cases later : ∃ m ∈ lengths, place = working.take (m + 1)
      · obtain ⟨m, member, same⟩ := later
        rw [if_pos ⟨m, member, same⟩, if_pos ⟨m, List.mem_cons_of_mem n member, same⟩]
      · rw [if_neg later]
        by_cases here : place = working.take (n + 1)
        · rw [if_pos here, if_pos ⟨n, List.mem_cons_self, here⟩]
        · rw [if_neg here, if_neg]
          rintro ⟨m, member, same⟩
          rcases List.mem_cons.1 member with rfl | rest
          · exact here same
          · exact later ⟨m, rest, same⟩

/-- On a disk on which nothing has been made, there is only what leads to the working
directory. -/
theorem prefix_of_lookup_empty {working place : Place} {node : Node}
    (held : (empty working).lookup place = some node) : place <+: working := by
  unfold lookup at held
  split at held
  · next root =>
      rw [root]
      exact List.nil_prefix
  · rw [empty, find?_foldl_insert] at held
    split at held
    · next above =>
        obtain ⟨n, _, rfl⟩ := above
        exact List.take_prefix _ _
    · simp at held

theorem eq_directory_of_lookup_empty {working place : Place} {node : Node}
    (held : (empty working).lookup place = some node) : node = .directory := by
  unfold lookup at held
  split at held
  · cases held
    rfl
  · rw [empty, find?_foldl_insert] at held
    split at held
    · cases held
      rfl
    · simp at held

theorem unused_empty {working : Place} {name : String} (notMem : name ∉ working) :
    (empty working).Unused name := by
  intro place member
  cases held : (empty working).lookup place with
  | none => rfl
  | some node => exact absurd ((prefix_of_lookup_empty held).subset member) notMem

/-- **No path with an unused name leads anywhere.** -/
theorem Unused.find_ne_ok {name : String} (unused : d.Unused name)
    (plain : ¬ (name = "." ∨ name = "..")) (member : name ∈ p.segments) (place : Place)
    (node : Node) : d.find p ≠ .ok (place, node) := by
  intro found
  obtain ⟨start, _, walked, held⟩ := find_eq_ok_iff.1 found
  have among : name ∈ steps p := by
    unfold steps
    split
    · exact List.mem_append_left _ member
    · exact member
  obtain ⟨front, back, split⟩ := List.append_of_mem among
  rw [split, walkPlaces_append] at walked
  obtain ⟨between, _, walked⟩ := bind_eq_ok.1 walked
  rw [walkPlaces_cons] at walked
  obtain ⟨next, stepped, rest⟩ := bind_eq_ok.1 walked
  obtain ⟨_, _, rfl⟩ := (stepPlace_name_eq_ok_iff plain).1 stepped
  have vacant : d.lookup (between ++ [name]) = none := unused _ (by simp)
  obtain ⟨node', reached⟩ := exists_of_walkPlaces rest held
  rw [resolve_of_ne_link (by simp [vacant]), vacant] at reached
  cases reached

/-- **A path that ends in a name that was unused** leads to the directory that has been made under
this name, if to any. -/
theorem Unused.eq_of_walkPlaces {name : String} (unused : d.Unused name) (isName : IsName name)
    {place other : Place} (nonempty : place ≠ []) (last : p.segments.getLast? = some name)
    (walked : (d.put place .directory).walkPlaces p.segments [] = .ok other)
    (held : (d.put place .directory).lookup other = some .directory) : other = place := by
  rw [segments_eq_of_getLast? last, walkPlaces_append] at walked
  obtain ⟨between, _, walked⟩ := bind_eq_ok.1 walked
  rw [walkPlaces_cons] at walked
  obtain ⟨next, stepped, rest⟩ := bind_eq_ok.1 walked
  cases rest
  obtain ⟨_, _, rfl⟩ := (stepPlace_name_eq_ok_iff isName.not_dots).1 stepped
  by_cases own : between ++ [name] = place
  · rw [own, resolve_of_ne_link]
    intro target linked
    rw [lookup_put d nonempty, if_pos rfl] at linked
    cases linked
  · have vacant : (d.put place .directory).lookup (between ++ [name]) = none := by
      rw [lookup_put d nonempty, if_neg own]
      exact unused _ (by simp)
    rw [resolve_of_ne_link (by simp [vacant]), vacant] at held
    cases held

/-- The place of a name: what leads to it exists, and the name stands behind. -/
theorem exists_of_newPlace {onDots : Fault} {place : Place}
    (created : d.newPlace p onDots = .ok place) :
    ∃ directory last, p.segments.getLast? = some last ∧ place = directory ++ [last] ∧
      d.lookup directory = some .directory := by
  obtain ⟨_, directory, last, _, named, _, held, _, _, same⟩ := newPlace_eq_ok_iff.1 created
  exact ⟨directory, last, named, same, held⟩

theorem Unused.of_makeDirectory {name : String} (unused : d.Unused name)
    (notMem : name ∉ p.segments) (made : d.makeDirectory p = .ok d') : d'.Unused name := by
  obtain ⟨place, created, _, rfl⟩ := makeDirectory_eq_ok_iff.1 made
  obtain ⟨directory, last, named, rfl, held⟩ := exists_of_newPlace created
  refine unused.put (ne_nil_of_newPlace created) (fun member => ?_) _
  rcases List.mem_append.1 member with inside | own
  · exact unused.notMem held inside
  · rw [List.mem_singleton.1 own] at notMem
    exact notMem (List.mem_of_getLast? named)

theorem Unused.of_makesAbove {name : String} (unused : d.Unused name)
    (absolute : p.isAbsolute = true) (notMem : name ∉ (p.segments.filter (· ≠ ".")).dropLast)
    (made : MakesAbove p d d') : d'.Unused name := by
  induction made with
  | nothing => exact unused
  | more _ above last ih =>
      exact ih.of_makeDirectory (fun member => notMem (above.subset absolute member)) last

/-- A directory with an unused name is made after the directories above it, and none of these has
the name.  If something is refused, the directory itself is not made. -/
theorem provideDirectory_of_unused {name : String} (unused : d.Unused name)
    (isName : IsName name) (absolute : p.isAbsolute = true) {front : List String}
    (split : p.segments = front ++ [name]) (notMem : name ∉ front) :
    ∃ between, MakesAbove p d between ∧ between.Unused name ∧
      ((∃ d', between.makeDirectory p = .ok d' ∧ d.provideDirectory p = (.ok (), d')) ∨
        ∃ fault, d.provideDirectory p = (.error fault, between)) := by
  have notAbove : name ∉ (p.segments.filter (· ≠ ".")).dropLast := by
    simp [split, isName.2.2.1, notMem]
  obtain ⟨between, made, whole⟩ := makeDirectories_cases d p (p.parts.length + 2)
  have unusedBetween := unused.of_makesAbove absolute notAbove made
  refine ⟨between, made, unusedBetween, ?_⟩
  rcases whole with done | ⟨same, done⟩
  · exact .inl done
  · right
    cases result : (d.provideDirectory p).1 with
    | error fault => exact ⟨fault, Prod.ext result same⟩
    | ok _ =>
        rcases done result with empty | there
        · simp [isAbsolute, empty] at absolute
        · -- the path has the unused name, so there is no directory
          unfold hasDirectory at there
          split at there
          · next place found =>
              have member : name ∈ p.segments := by simp [split]
              exact absurd found (unusedBetween.find_ne_ok isName.not_dots member place _)
          · cases there

end Slidecast.Files.Disk
