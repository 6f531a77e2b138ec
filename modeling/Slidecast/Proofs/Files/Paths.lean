import Mathlib.Data.List.Basic
import Slidecast.Files.Disk

/-!
# The segments of paths

Paths are put together and taken apart as texts, but what they lead to depends on their segments.
This module says what the segments of a path are when it is joined from two (`segments_join`),
spelled from parts (`segments_ofParts`), seen from the root (`segments_absoluteFrom`), or cut off at
the end (`segments_of_parent?`).
-/

set_option autoImplicit false

namespace Slidecast

/-! ## Cutting at separators -/

theorem cutAtSlash_ne_nil (cs : List Char) : cutAtSlash cs ≠ [] := by
  cases cs with
  | nil => simp [cutAtSlash]
  | cons c cs =>
      simp only [cutAtSlash]
      split
      · simp
      · split <;> simp

/-- A separator cuts, whatever stands around it. -/
theorem cutAtSlash_append (front back : List Char) :
    cutAtSlash (front ++ '/' :: back) = cutAtSlash front ++ cutAtSlash back := by
  induction front with
  | nil => simp [cutAtSlash]
  | cons c cs ih =>
      simp only [List.cons_append, cutAtSlash, ih]
      split
      · rfl
      · cases cut : cutAtSlash cs with
        | nil => exact absurd cut (cutAtSlash_ne_nil cs)
        | cons first rest => rfl

theorem cutAtSlash_of_notMem {cs : List Char} (absent : '/' ∉ cs) : cutAtSlash cs = [cs] := by
  induction cs with
  | nil => rfl
  | cons c cs ih =>
      have other : c ≠ '/' := fun same => absent (by simp [same])
      have rest : '/' ∉ cs := fun member => absent (List.mem_cons_of_mem c member)
      simp [cutAtSlash, other, ih rest]

theorem notMem_of_mem_cutAtSlash {cs piece : List Char} (member : piece ∈ cutAtSlash cs) :
    '/' ∉ piece := by
  induction cs generalizing piece with
  | nil =>
      rw [cutAtSlash, List.mem_singleton] at member
      simp [member]
  | cons c cs ih =>
      simp only [cutAtSlash] at member
      split at member
      · rcases List.mem_cons.1 member with rfl | later
        · simp
        · exact ih later
      · next other =>
          cases cut : cutAtSlash cs with
          | nil => exact absurd cut (cutAtSlash_ne_nil cs)
          | cons first rest =>
              rw [cut] at member ih
              rcases List.mem_cons.1 member with rfl | later
              · have behind : '/' ∉ first := ih List.mem_cons_self
                intro slash
                rcases List.mem_cons.1 slash with same | inside
                · exact other same.symm
                · exact behind inside
              · exact ih (List.mem_cons_of_mem first later)

namespace Path

/-! ## Segments of texts -/

/-- The segments of a row of characters. -/
def segmentsOf (cs : List Char) : List String :=
  ((cutAtSlash cs).filter (· ≠ [])).map String.ofList

theorem segments_eq (p : Path) : p.segments = segmentsOf p.text.toList := rfl

theorem segmentsOf_append (front back : List Char) :
    segmentsOf (front ++ '/' :: back) = segmentsOf front ++ segmentsOf back := by
  simp [segmentsOf, cutAtSlash_append]

@[simp] theorem segmentsOf_nil : segmentsOf [] = [] := rfl

/-- What can stand between two separators. -/
def IsSegment (text : String) : Prop := text ≠ "" ∧ '/' ∉ text.toList

instance : DecidablePred IsSegment := fun _ => inferInstanceAs (Decidable (_ ∧ _))

theorem isSegment_of_mem {p : Path} {segment : String} (member : segment ∈ p.segments) :
    IsSegment segment := by
  obtain ⟨piece, kept, rfl⟩ := List.mem_map.1 member
  obtain ⟨cut, filled⟩ := List.mem_filter.1 kept
  have nonempty : piece ≠ [] := by simpa using filled
  exact ⟨by simpa using nonempty, by simpa using notMem_of_mem_cutAtSlash cut⟩

theorem segmentsOf_of_isSegment {text : String} (isSegment : IsSegment text) :
    segmentsOf text.toList = [text] := by
  have nonempty : text.toList ≠ [] := by simpa using isSegment.1
  simp [segmentsOf, cutAtSlash_of_notMem isSegment.2, nonempty]

/-- Segments with separators between them are the segments of the whole. -/
theorem segmentsOf_intercalate {texts : List String} (all : ∀ text ∈ texts, IsSegment text) :
    segmentsOf (String.intercalate "/" texts).toList = texts := by
  induction texts with
  | nil => rfl
  | cons text texts ih =>
      have first := segmentsOf_of_isSegment (all text List.mem_cons_self)
      have rest := ih fun other member => all other (List.mem_cons_of_mem text member)
      cases texts with
      | nil => simpa using first
      | cons next others =>
          rw [String.intercalate_cons_cons]
          simp only [String.toList_append]
          have slash : "/".toList = ['/'] := rfl
          rw [slash, List.append_assoc, List.singleton_append, segmentsOf_append, first, rest]
          rfl

/-! ## Joined paths -/

/-- Unless the second path starts at the root, the segments of the first come before its own. -/
theorem segments_join {p q : Path} (relative : q.isAbsolute = false) :
    (p / q).segments = p.segments ++ q.segments := by
  show (join p q).segments = p.segments ++ q.segments
  unfold join
  rw [relative]
  simp only [Bool.false_eq_true, if_false]
  split
  · next glued =>
      rcases (Bool.or_eq_true _ _).mp glued with empty | slash
      · have nothing : p.text = "" := by simpa using empty
        simp [segments_eq, nothing]
      · have last : p.text.toList.getLast? = some '/' := by simpa [endsWithSlash] using slash
        have whole : p.text.toList = p.text.toList.dropLast ++ ['/'] :=
          (List.dropLast_append_getLast? '/' last).symm
        simp only [segments_eq, String.toList_append]
        rw [whole, List.append_assoc, List.singleton_append, segmentsOf_append,
          segmentsOf_append, segmentsOf_nil, List.append_nil]
  · simp only [segments_eq, String.toList_append]
    have slash : "/".toList = ['/'] := rfl
    rw [slash, List.append_assoc, List.singleton_append, segmentsOf_append]

/-- A name of a file or a directory. -/
def IsName (text : String) : Prop :=
  text ≠ "" ∧ '/' ∉ text.toList ∧ text ≠ "." ∧ text ≠ ".."

instance : DecidablePred IsName := fun _ => inferInstanceAs (Decidable (_ ∧ _))

theorem IsName.isSegment {text : String} (isName : IsName text) : IsSegment text :=
  ⟨isName.1, isName.2.1⟩

theorem IsName.not_dots {text : String} (isName : IsName text) :
    ¬ (text = "." ∨ text = "..") := by
  rintro (dot | up)
  · exact isName.2.2.1 dot
  · exact isName.2.2.2 up

theorem isAbsolute_eq_false {text : String} (absent : '/' ∉ text.toList) :
    (Path.mk text).isAbsolute = false := by
  cases cs : text.toList with
  | nil => simp [isAbsolute, cs]
  | cons c rest =>
      have other : c ≠ '/' := fun same => absent (by simp [cs, same])
      simp [isAbsolute, cs, other]

section Names

variable {p : Path} {name : String}

theorem segments_join_name (isName : IsName name) :
    (p / ⟨name⟩).segments = p.segments ++ [name] := by
  rw [segments_join (isAbsolute_eq_false isName.2.1)]
  exact congrArg (p.segments ++ ·) (segmentsOf_of_isSegment isName.isSegment)

theorem getLast?_segments_join (isName : IsName name) :
    (p / ⟨name⟩).segments.getLast? = some name := by
  simp [segments_join_name isName]

theorem dropLast_segments_join (isName : IsName name) :
    (p / ⟨name⟩).segments.dropLast = p.segments := by
  simp [segments_join_name isName]

theorem join_name_inj {other : String} (isName : IsName name) (isName' : IsName other)
    (same : p / ⟨name⟩ = p / ⟨other⟩) : name = other := by
  have last := congrArg (fun q : Path => q.segments.getLast?) same
  simp only [getLast?_segments_join isName, getLast?_segments_join isName'] at last
  exact Option.some.inj last

/-- What stands in front of a name in a joined path. -/
theorem exists_text_join (isName : IsName name) :
    ∃ front, (p / ⟨name⟩).text = front ++ name := by
  show ∃ front, (join p ⟨name⟩).text = front ++ name
  unfold join
  rw [isAbsolute_eq_false isName.2.1]
  simp only [Bool.false_eq_true, if_false]
  split
  · exact ⟨p.text, rfl⟩
  · exact ⟨p.text ++ "/", rfl⟩

theorem endsWithSlash_join (isName : IsName name) : (p / ⟨name⟩).endsWithSlash = false := by
  obtain ⟨front, whole⟩ := exists_text_join (p := p) isName
  have nonempty : name.toList ≠ [] := by simpa using isName.1
  have last := List.getLast?_eq_some_getLast nonempty
  have other : name.toList.getLast nonempty ≠ '/' := by
    intro same
    exact isName.2.1 (same ▸ List.getLast_mem nonempty)
  simp [endsWithSlash, whole, List.getLast?_append, last, other]

theorem isAbsolute_join (isName : IsName name) : (p / ⟨name⟩).isAbsolute = p.isAbsolute := by
  show (join p ⟨name⟩).isAbsolute = p.isAbsolute
  unfold join
  rw [isAbsolute_eq_false isName.2.1]
  simp only [Bool.false_eq_true, if_false]
  cases cs : p.text.toList with
  | nil =>
      have empty : p.text = "" := by simpa using cs
      have relative := isAbsolute_eq_false isName.2.1
      simp [isAbsolute, empty] at relative ⊢
      exact relative
  | cons c rest =>
      split
      · simp [isAbsolute, cs]
      · simp [isAbsolute, cs]

end Names

/-! ## Paths from parts -/

/-- The parts behind the root or the dot in front of a path. -/
def inner (p : Path) : List PathPart := p.segments.filterMap partOf?

theorem parts_eq (p : Path) :
    p.parts =
      if p.isAbsolute then .root :: p.inner
      else if p.segments.head? = some "." then .here :: p.inner
      else p.inner := rfl

/-- Read and spelled again, the segments of a path lose their dots. -/
theorem map_spelling_inner (p : Path) :
    p.inner.map PathPart.spelling = p.segments.filter (· ≠ ".") := by
  unfold inner
  induction p.segments with
  | nil => rfl
  | cons segment segments ih =>
      by_cases dot : segment = "."
      · simp [partOf?, dot, ih]
      · by_cases up : segment = ".."
        · subst up
          simp [partOf?, PathPart.spelling, ih]
        · simp [partOf?, dot, up, PathPart.spelling, ih]

/-- A part that stands for a segment. -/
def IsInner (part : PathPart) : Prop :=
  part ≠ .root ∧ part ≠ .here ∧ IsSegment part.spelling

theorem isInner_of_mem {p : Path} {part : PathPart} (member : part ∈ p.inner) :
    IsInner part := by
  obtain ⟨segment, among, read⟩ := List.mem_filterMap.1 member
  have isSegment := isSegment_of_mem among
  unfold partOf? at read
  split at read
  · cases read
  · split at read
    · cases read
      exact ⟨by decide, by decide, by decide⟩
    · cases read
      exact ⟨by simp, by simp, isSegment⟩

theorem spell_of_isInner {parts : List PathPart} (all : ∀ part ∈ parts, IsInner part) :
    spell parts = String.intercalate "/" (parts.map PathPart.spelling) := by
  cases parts with
  | nil => rfl
  | cons part parts =>
      have notRoot := (all part List.mem_cons_self).1
      cases part with
      | root => exact absurd rfl notRoot
      | here => rfl
      | parent => rfl
      | name text => rfl

/-- The segments of a path that is spelled from parts are the spellings of the parts. -/
theorem segments_ofParts {parts : List PathPart} (all : ∀ part ∈ parts, IsInner part) :
    (ofParts parts).segments = parts.map PathPart.spelling := by
  rw [segments_eq, ofParts, spell_of_isInner all]
  refine segmentsOf_intercalate fun text member => ?_
  obtain ⟨part, among, rfl⟩ := List.mem_map.1 member
  exact (all part among).2.2

theorem isAbsolute_ofParts {parts : List PathPart} (all : ∀ part ∈ parts, IsInner part) :
    (ofParts parts).isAbsolute = false := by
  unfold ofParts
  rw [spell_of_isInner all]
  cases parts with
  | nil => rfl
  | cons part parts =>
      obtain ⟨_, _, nonempty, noSlash⟩ := all part List.mem_cons_self
      cases cs : part.spelling.toList with
      | nil => exact absurd (by simpa using cs) nonempty
      | cons c rest =>
          have other : c ≠ '/' := fun same => noSlash (by simp [cs, same])
          cases parts with
          | nil => simp [isAbsolute, cs, other]
          | cons next others => simp [isAbsolute, cs, other, String.intercalate_cons_cons]

/-- Behind the root, parts are spelled as they are without it. -/
theorem segments_ofParts_root {parts : List PathPart} (all : ∀ part ∈ parts, IsInner part) :
    (ofParts (.root :: parts)).segments = parts.map PathPart.spelling := by
  have rooted : (ofParts (.root :: parts)).text.toList =
      [] ++ '/' :: (ofParts parts).text.toList := by
    unfold ofParts
    rw [spell_of_isInner all]
    simp [spell]
  rw [segments_eq, rooted, segmentsOf_append, ← segments_eq, segments_ofParts all]
  rfl

theorem isAbsolute_ofParts_root (parts : List PathPart) :
    (ofParts (.root :: parts)).isAbsolute = true := by
  simp [ofParts, spell, isAbsolute]

/-! ## Paths above a path -/

theorem eq_of_parent? {p q : Path} (absolute : p.isAbsolute = true)
    (above : p.parent? = some q) : q = ofParts (.root :: p.inner.dropLast) := by
  have whole : p.parts = .root :: p.inner := by
    rw [parts_eq, if_pos absolute]
  unfold parent? at above
  rw [whole] at above
  split at above
  · cases above
  · cases above
  · next last notRoot found =>
      cases above
      cases behind : p.inner with
      | nil =>
          rw [behind] at found
          exact absurd (Option.some.inj found).symm notRoot
      | cons part parts => rfl

theorem isAbsolute_of_parent? {p q : Path} (absolute : p.isAbsolute = true)
    (above : p.parent? = some q) : q.isAbsolute = true := by
  rw [eq_of_parent? absolute above]
  exact isAbsolute_ofParts_root _

theorem segments_of_parent? {p q : Path} (absolute : p.isAbsolute = true)
    (above : p.parent? = some q) :
    q.segments = (p.segments.filter (· ≠ ".")).dropLast := by
  have all : ∀ part ∈ p.inner.dropLast, IsInner part :=
    fun part member => isInner_of_mem ((List.dropLast_sublist _).subset member)
  rw [eq_of_parent? absolute above, segments_ofParts_root all, List.map_dropLast,
    map_spelling_inner]

/-- `q` is one of the paths that are reached from `p` by leaving out parts at its end. -/
inductive IsAbove : Path → Path → Prop where
  | parent {q p : Path} : p.parent? = some q → IsAbove q p
  | further {q r p : Path} : p.parent? = some r → IsAbove q r → IsAbove q p

theorem IsAbove.isAbsolute {q p : Path} (above : IsAbove q p) (absolute : p.isAbsolute = true) :
    q.isAbsolute = true := by
  induction above with
  | parent next => exact isAbsolute_of_parent? absolute next
  | further next _ ih => exact ih (isAbsolute_of_parent? absolute next)

/-- A path above another one has only segments of it, and not the last one. -/
theorem IsAbove.subset {q p : Path} (above : IsAbove q p) (absolute : p.isAbsolute = true) :
    q.segments ⊆ (p.segments.filter (· ≠ ".")).dropLast := by
  induction above with
  | parent next =>
      rw [segments_of_parent? absolute next]
      exact List.Subset.refl _
  | @further r p next _ ih =>
      have among := ih (isAbsolute_of_parent? absolute next)
      rw [segments_of_parent? absolute next] at among
      intro segment member
      have inside := (List.dropLast_sublist _).subset (among member)
      exact (List.mem_filter.1 inside).1

/-! ## Paths as they are seen from the root -/

theorem filter_parts (p : Path) :
    p.parts.filter (fun part => part != .root && part != .here) = p.inner := by
  have kept : p.inner.filter (fun part => part != .root && part != .here) = p.inner := by
    refine List.filter_eq_self.2 fun part member => ?_
    have isInner := isInner_of_mem member
    simp [isInner.1, isInner.2.1]
  rw [parts_eq]
  split
  · simp [kept]
  · split
    · simp [kept]
    · exact kept

/-- The text in front of a path that is seen from the root. -/
def startText (directory p : Path) : String :=
  if p.text.toList.take 2 == ['/', '/'] && p.text.toList.take 3 != ['/', '/', '/'] then "//"
  else if p.isAbsolute then "/"
  else directory.text

theorem absoluteFrom_eq (directory p : Path) :
    absoluteFrom directory p =
      let whole := Path.mk (startText directory p) / ofParts p.inner
      if p.endsWithSlash && !whole.endsWithSlash then ⟨whole.text ++ "/"⟩ else whole := by
  unfold absoluteFrom
  rw [filter_parts]
  rfl

theorem isAbsolute_startText {directory : Path} (absolute : directory.isAbsolute = true)
    (p : Path) : (Path.mk (startText directory p)).isAbsolute = true := by
  unfold startText
  split
  · rfl
  · split
    · rfl
    · exact absolute

theorem segments_startText (directory p : Path) :
    (Path.mk (startText directory p)).segments =
      if p.isAbsolute then [] else directory.segments := by
  unfold startText
  split
  · next doubled =>
      have absolute : p.isAbsolute = true := by
        simp only [Bool.and_eq_true, beq_iff_eq] at doubled
        cases cs : p.text.toList with
        | nil => simp [cs] at doubled
        | cons c rest => simp_all [isAbsolute]
      rw [if_pos absolute]
      rfl
  · split
    · rfl
    · rfl

theorem isAbsolute_absoluteFrom {directory : Path} (absolute : directory.isAbsolute = true)
    (p : Path) : (absoluteFrom directory p).isAbsolute = true := by
  have start := isAbsolute_startText absolute p
  have whole : (Path.mk (startText directory p) / ofParts p.inner).isAbsolute = true := by
    show (join _ _).isAbsolute = true
    unfold join
    rw [isAbsolute_ofParts fun part => isInner_of_mem]
    simp only [Bool.false_eq_true, if_false]
    cases cs : (startText directory p).toList with
    | nil => simp [isAbsolute, cs] at start
    | cons c rest => split <;> simp_all [isAbsolute]
  rw [absoluteFrom_eq]
  cases cs : (Path.mk (startText directory p) / ofParts p.inner).text.toList with
  | nil => simp [isAbsolute, cs] at whole
  | cons c rest =>
      simp only []
      split <;> simp_all [isAbsolute]

theorem segments_absoluteFrom (directory p : Path) :
    (absoluteFrom directory p).segments =
      (if p.isAbsolute then [] else directory.segments) ++ p.segments.filter (· ≠ ".") := by
  have whole : (Path.mk (startText directory p) / ofParts p.inner).segments =
      (if p.isAbsolute then [] else directory.segments) ++ p.segments.filter (· ≠ ".") := by
    rw [segments_join (isAbsolute_ofParts fun part => isInner_of_mem), segments_startText,
      segments_ofParts fun part => isInner_of_mem, map_spelling_inner]
  rw [absoluteFrom_eq, ← whole]
  simp only []
  split
  · simp only [segments_eq, String.toList_append]
    have slash : "/".toList = '/' :: [] := rfl
    rw [slash, segmentsOf_append, segmentsOf_nil, List.append_nil]
  · rfl

end Path

namespace Files.Disk

theorem isAbsolute_absolute (d : Disk) (p : Path) : (d.absolute p).isAbsolute = true :=
  Path.isAbsolute_absoluteFrom (by simp [Path.isAbsolute]) p

/-- Seen from the root, a name in a directory comes behind the segments of the directory. -/
theorem segments_absolute_join (d : Disk) (p : Path) {name : String}
    (isName : Path.IsName name) :
    (d.absolute (p / ⟨name⟩)).segments = (d.absolute p).segments ++ [name] := by
  unfold absolute
  rw [Path.segments_absoluteFrom, Path.segments_absoluteFrom, Path.isAbsolute_join isName,
    Path.segments_join_name isName]
  simp [isName.2.2.1]

end Files.Disk

end Slidecast
