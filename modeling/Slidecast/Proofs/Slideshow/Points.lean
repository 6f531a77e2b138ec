import Slidecast.Slideshow.Cut
import Slidecast.Proofs.Speech.Soundness

/-!
# The points of a slideshow

Before the end of the speech is added, a slideshow has points: zero and those that the markers
mean, or zero and the ends of the even shares.

The points of markers have pairwise different values, and their values are zero and the starts
that the markers mean (`mem_values_markerPoints`).  The points of even shares never go back, and
they lie between zero and the later of zero and the end of the speech (`pairwise_evenPoints`,
`evenPoint_le`).
-/

set_option autoImplicit false

namespace Slidecast.Slideshow

open Number Speech

/-- The exact values of points. -/
def values (points : List Double) : List Rat := points.map Binary.toRat

theorem mem_values {points : List Double} {q : Rat} :
    q ∈ values points ↔ ∃ point ∈ points, point.toRat = q := List.mem_map

/-! ## Points at marker words -/

/-- A marker means the start of a word of the speech. -/
theorem exists_word_of_startOf? {words : List Word} {marker : String} {start : Double}
    (found : startOf? words marker = some start) : ∃ w ∈ words, w.start = start := by
  unfold startOf? at found
  obtain ⟨w, first, rfl⟩ := Option.map_eq_some_iff.1 found
  exact ⟨w, List.mem_of_find?_eq_some first, rfl⟩

/-- Points that are finite and have pairwise different values. -/
structure Apart (points : List Double) : Prop where
  finite : ∀ point ∈ points, point.isFinite = true
  nodup : (values points).Nodup

section AddPoint

variable {points : List Double} {point : Double}

theorem any_equals_iff (finite : ∀ p ∈ points, p.isFinite = true)
    (isFinite : point.isFinite = true) :
    points.any (·.equals point) = true ↔ point.toRat ∈ values points := by
  rw [List.any_eq_true, mem_values]
  refine exists_congr fun p => and_congr_right fun member => ?_
  exact Binary.equals_iff_toRat_eq (finite p member) isFinite

theorem apart_addPoint (apart : Apart points) (isFinite : point.isFinite = true) :
    Apart (addPoint points point) := by
  unfold addPoint
  split
  next => exact apart
  next new =>
    rw [any_equals_iff apart.finite isFinite] at new
    refine ⟨fun p member => ?_, ?_⟩
    · rw [List.mem_append, List.mem_singleton] at member
      rcases member with old | rfl
      · exact apart.finite p old
      · exact isFinite
    · rw [values, List.map_append, List.nodup_append]
      refine ⟨apart.nodup, by simp, fun q old r last => ?_⟩
      rw [List.map_singleton, List.mem_singleton] at last
      exact fun same => new (last ▸ same ▸ old)

theorem mem_values_addPoint (apart : Apart points) (isFinite : point.isFinite = true) {q : Rat} :
    q ∈ values (addPoint points point) ↔ q ∈ values points ∨ q = point.toRat := by
  unfold addPoint
  split
  next old =>
    rw [any_equals_iff apart.finite isFinite] at old
    exact ⟨.inl, fun either => either.elim id fun same => same ▸ old⟩
  next => simp [values]

theorem mem_addPoint_of_mem {p : Double} (member : p ∈ points) : p ∈ addPoint points point := by
  unfold addPoint
  split
  · exact member
  · exact List.mem_append_left _ member

end AddPoint

section AddPoints

variable {points found : List Double}

theorem apart_foldl_addPoint (apart : Apart points)
    (finite : ∀ point ∈ found, point.isFinite = true) : Apart (found.foldl addPoint points) := by
  induction found generalizing points with
  | nil => exact apart
  | cons point found ih =>
      rw [List.forall_mem_cons] at finite
      exact ih (apart_addPoint apart finite.1) finite.2

theorem mem_values_foldl_addPoint (apart : Apart points)
    (finite : ∀ point ∈ found, point.isFinite = true) {q : Rat} :
    q ∈ values (found.foldl addPoint points) ↔ q ∈ values points ∨ q ∈ values found := by
  induction found generalizing points with
  | nil => simp [values]
  | cons point found ih =>
      rw [List.forall_mem_cons] at finite
      rw [List.foldl_cons, ih (apart_addPoint apart finite.1) finite.2,
        mem_values_addPoint apart finite.1]
      simp [values, or_assoc, eq_comm]

theorem mem_foldl_addPoint_of_mem {p : Double} (member : p ∈ points) :
    p ∈ found.foldl addPoint points := by
  induction found generalizing points with
  | nil => exact member
  | cons point found ih => exact ih (mem_addPoint_of_mem member)

end AddPoints

section MarkerPoints

variable {t : Transcript} {markers : List String}

/-- The starts that markers mean. -/
def foundStarts (t : Transcript) (markers : List String) : List Double :=
  markers.filterMap (startOf? t.words)

theorem mem_foundStarts {start : Double} :
    start ∈ foundStarts t markers ↔ ∃ marker ∈ markers, startOf? t.words marker = some start :=
  List.mem_filterMap

theorem exists_word_of_mem_foundStarts {start : Double} (member : start ∈ foundStarts t markers) :
    ∃ w ∈ t.words, w.start = start := by
  obtain ⟨marker, _, found⟩ := mem_foundStarts.1 member
  exact exists_word_of_startOf? found

theorem isFinite_of_mem_foundStarts {start : Double} (member : start ∈ foundStarts t markers) :
    start.isFinite = true := by
  obtain ⟨w, inSpeech, rfl⟩ := exists_word_of_mem_foundStarts member
  exact Transcript.isFinite_start inSpeech

theorem apart_zero : Apart [0] := ⟨by simp, by simp [values]⟩

theorem markerPoints_perm :
    (markerPoints t markers).Perm ((foundStarts t markers).foldl addPoint [0]) :=
  List.mergeSort_perm _ _

theorem apart_markerPoints : Apart (markerPoints t markers) := by
  have apart : Apart ((foundStarts t markers).foldl addPoint [0]) :=
    apart_foldl_addPoint apart_zero fun _ => isFinite_of_mem_foundStarts
  refine ⟨fun p member => apart.finite p (markerPoints_perm.mem_iff.1 member), ?_⟩
  exact (markerPoints_perm.map Binary.toRat).nodup_iff.2 apart.nodup

/-- **The values of the points** are zero and the starts that the markers mean. -/
theorem mem_values_markerPoints {q : Rat} :
    q ∈ values (markerPoints t markers) ↔
      q = 0 ∨ ∃ start ∈ foundStarts t markers, start.toRat = q := by
  rw [values, (markerPoints_perm.map Binary.toRat).mem_iff]
  have added : q ∈ values ((foundStarts t markers).foldl addPoint [0]) ↔
      q ∈ values [0] ∨ q ∈ values (foundStarts t markers) :=
    mem_values_foldl_addPoint apart_zero fun _ => isFinite_of_mem_foundStarts
  simpa [values] using added

theorem zero_mem_markerPoints : 0 ∈ markerPoints t markers :=
  markerPoints_perm.mem_iff.2 (mem_foldl_addPoint_of_mem (by simp))

theorem pairwise_markerPoints :
    (markerPoints t markers).Pairwise fun p q => p.toRat ≤ q.toRat := by
  refine Binary.pairwise_le_mergeSort fun p member => ?_
  exact apart_markerPoints.finite p (markerPoints_perm.mem_iff.2 member)

/-- A point of a marker lies before the end of the speech, unless it is zero. -/
theorem markerPoint_le {stop : Double} (ends : t.stop? = some stop) {p : Double}
    (member : p ∈ markerPoints t markers) : p.toRat ≤ max 0 stop.toRat := by
  have value := mem_values_markerPoints.1 (mem_values.2 ⟨p, member, rfl⟩)
  rcases value with zero | ⟨start, found, same⟩
  · exact zero ▸ le_max_left _ _
  · obtain ⟨w, inSpeech, rfl⟩ := exists_word_of_mem_foundStarts found
    exact same ▸ (Transcript.start_le_end ends inSpeech).trans (le_max_right _ _)

/-- **The points of markers begin at zero** exactly when no marker means a negative start. -/
theorem head?_markerPoints_eq_zero_iff :
    (markerPoints t markers).head? = some 0 ↔
      ∀ start ∈ foundStarts t markers, 0 ≤ start.toRat := by
  have pairwise : (markerPoints t markers).Pairwise fun p q => p.toRat ≤ q.toRat :=
    pairwise_markerPoints
  have nodup : (values (markerPoints t markers)).Nodup := apart_markerPoints.nodup
  have contains (q : Rat) : q ∈ values (markerPoints t markers) ↔
      q = 0 ∨ ∃ start ∈ foundStarts t markers, start.toRat = q := mem_values_markerPoints
  have zero : 0 ∈ markerPoints t markers := zero_mem_markerPoints
  cases shape : markerPoints t markers with
  | nil => simp [shape] at zero
  | cons first rest =>
      rw [shape] at pairwise nodup contains zero
      rw [List.pairwise_cons] at pairwise
      rw [List.head?_cons, Option.some_inj]
      constructor
      · rintro rfl start found
        have member := (contains _).2 (.inr ⟨start, found, rfl⟩)
        obtain ⟨p, inPoints, same⟩ := mem_values.1 member
        rw [← same]
        rcases List.mem_cons.1 inPoints with rfl | later
        · simp
        · simpa using pairwise.1 p later
      · intro nonneg
        rcases List.mem_cons.1 zero with same | later
        · exact same.symm
        · -- zero stands behind the first point, so that one would be another point of value zero
          have upper : first.toRat ≤ 0 := by simpa using pairwise.1 0 later
          have lower : 0 ≤ first.toRat := by
            rcases (contains _).1 (mem_values.2 ⟨first, by simp, rfl⟩) with is | ⟨start, found, is⟩
            · exact is.ge
            · exact is ▸ nonneg start found
          have twice : first.toRat ∈ values rest :=
            mem_values.2 ⟨0, later, by simpa using le_antisymm lower upper⟩
          exact absurd twice (List.nodup_cons.1 nodup).1

end MarkerPoints

/-! ## Points of even shares -/

section SharePoints

variable {words : List Word} {speechEnd : Double} {size : Nat}

/-- The end of the last word of a share. -/
def shareEnd (words : List Word) (speechEnd : Double) (size share : Nat) : Double :=
  (words[lastOfShare words.length size share]?.map Word.stop).getD speechEnd

theorem isFinite_shareEnd (finite : ∀ w ∈ words, w.stop.isFinite = true)
    (ends : speechEnd.isFinite = true) (size share : Nat) :
    (shareEnd words speechEnd size share).isFinite = true := by
  unfold shareEnd
  cases found : words[lastOfShare words.length size share]? with
  | none => exact ends
  | some w => exact finite w (List.mem_of_getElem? found)

/-- A point of a share lies between the point before it and the end of the speech; where those
are out of order, it stays where the point before it is. -/
theorem sharePoint_bounds {previous : Double} (finite : ∀ w ∈ words, w.stop.isFinite = true)
    (ends : speechEnd.isFinite = true) (starts : previous.isFinite = true)
    (size share : Nat) :
    let point := ((shareEnd words speechEnd size share).smaller speechEnd).larger previous
    point.isFinite = true ∧ previous.toRat ≤ point.toRat ∧
      point.toRat ≤ max previous.toRat speechEnd.toRat := by
  have wordEnd := isFinite_shareEnd finite ends size share
  have clipped := Binary.isFinite_smaller wordEnd ends
  refine ⟨Binary.isFinite_larger clipped starts, ?_, ?_⟩
  · rw [Binary.toRat_larger clipped starts]
    exact le_max_right _ _
  · rw [Binary.toRat_larger clipped starts, Binary.toRat_smaller wordEnd ends]
    exact max_le ((min_le_right _ _).trans (le_max_right _ _)) (le_max_left _ _)

theorem sharePoints_succ (more share : Nat) (previous : Double) :
    sharePoints words speechEnd size (more + 1) share previous =
      ((shareEnd words speechEnd size share).smaller speechEnd).larger previous ::
        sharePoints words speechEnd size more (share + 1)
          (((shareEnd words speechEnd size share).smaller speechEnd).larger previous) := rfl

/-- The points of the shares lie between the point before them and the end of the speech. -/
theorem sharePoints_bounds (finite : ∀ w ∈ words, w.stop.isFinite = true)
    (ends : speechEnd.isFinite = true) (more share : Nat) {previous : Double}
    (starts : previous.isFinite = true) :
    ∀ p ∈ sharePoints words speechEnd size more share previous,
      previous.toRat ≤ p.toRat ∧ p.toRat ≤ max previous.toRat speechEnd.toRat := by
  induction more generalizing share previous with
  | zero => simp [sharePoints]
  | succ more ih =>
      obtain ⟨isFinite, lower, upper⟩ :=
        sharePoint_bounds finite ends starts size share
      rw [sharePoints_succ, List.forall_mem_cons]
      refine ⟨⟨lower, upper⟩, fun p member => ?_⟩
      obtain ⟨above, below⟩ := ih (share + 1) isFinite p member
      exact ⟨lower.trans above, below.trans (max_le upper (le_max_right _ _))⟩

theorem pairwise_sharePoints (finite : ∀ w ∈ words, w.stop.isFinite = true)
    (ends : speechEnd.isFinite = true) (more share : Nat) {previous : Double}
    (starts : previous.isFinite = true) :
    (previous :: sharePoints words speechEnd size more share previous).Pairwise
      fun p q => p.toRat ≤ q.toRat := by
  induction more generalizing share previous with
  | zero => simp [sharePoints]
  | succ more ih =>
      have isFinite := (sharePoint_bounds finite ends starts size share).1
      rw [List.pairwise_cons]
      refine ⟨fun p member => ?_, ?_⟩
      · exact (sharePoints_bounds finite ends (more + 1) share starts p member).1
      · rw [sharePoints_succ]
        exact ih (share + 1) isFinite

theorem isFinite_sharePoints (finite : ∀ w ∈ words, w.stop.isFinite = true)
    (ends : speechEnd.isFinite = true) (more share : Nat) {previous : Double}
    (starts : previous.isFinite = true) :
    ∀ p ∈ sharePoints words speechEnd size more share previous, p.isFinite = true := by
  induction more generalizing share previous with
  | zero => simp [sharePoints]
  | succ more ih =>
      have isFinite := (sharePoint_bounds finite ends starts size share).1
      rw [sharePoints_succ, List.forall_mem_cons]
      exact ⟨isFinite, ih (share + 1) isFinite⟩

end SharePoints

section EvenPoints

variable {t : Transcript} {pictures : Nat}

theorem head?_evenPoints : (evenPoints t pictures).head? = some 0 := by
  unfold evenPoints
  cases t.stop? <;> rfl

theorem isFinite_evenPoints : ∀ p ∈ evenPoints t pictures, p.isFinite = true := by
  unfold evenPoints
  cases ends : t.stop? with
  | none => simp
  | some stop =>
      rw [List.forall_mem_cons]
      exact ⟨by simp, isFinite_sharePoints (fun _ => Transcript.isFinite_stop)
        (Transcript.isFinite_of_stop? ends) _ _ (by simp)⟩

theorem pairwise_evenPoints : (evenPoints t pictures).Pairwise fun p q => p.toRat ≤ q.toRat := by
  unfold evenPoints
  cases ends : t.stop? with
  | none => simp
  | some stop =>
      exact pairwise_sharePoints (fun _ => Transcript.isFinite_stop)
        (Transcript.isFinite_of_stop? ends) _ _ (by simp)

/-- A point of an even share lies before the end of the speech, unless it is zero. -/
theorem evenPoint_le {stop : Double} (ends : t.stop? = some stop) {p : Double}
    (member : p ∈ evenPoints t pictures) : p.toRat ≤ max 0 stop.toRat := by
  unfold evenPoints at member
  rw [ends] at member
  rcases List.mem_cons.1 member with rfl | later
  · simp
  · have bounds := sharePoints_bounds (fun _ => Transcript.isFinite_stop)
      (Transcript.isFinite_of_stop? ends) _ _ (by simp) p later
    simpa using bounds.2

end EvenPoints

end Slidecast.Slideshow
