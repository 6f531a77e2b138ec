import Slidecast.Proofs.Slideshow.Points

/-!
# The order of the cuts

The cuts of a slideshow begin at zero, never go back, and end when the speech ends, as long as
nothing is said before time zero.  Times before zero are not kept out of a transcript, and
`cuts_order` says exactly what they spoil: a marker that means a negative start puts a cut before
zero, and a speech that ends before zero makes the last cut go back.
-/

set_option autoImplicit false

namespace Slidecast.Slideshow

open Number Speech

variable {t : Transcript} {pictures : Nat} {markers : List String}

/-! ## Closing the points with the end of the speech -/

section CloseWith

variable {points : List Double} {stop : Double}

theorem closeWith_some :
    closeWith (some stop) points =
      if points.getLast?.any (·.equals stop) then points else points ++ [stop] := rfl

/-- What is added behind a row of points whose last one is given: the end of the speech, if there
is one and the row does not end with it. -/
def ending (stop? : Option Double) (last : Double) : List Double :=
  match stop? with
  | none => []
  | some stop => if last.equals stop then [] else [stop]

theorem closeWith_eq_append {stop? : Option Double} {last : Double}
    (isLast : points.getLast? = some last) :
    closeWith stop? points = points ++ ending stop? last := by
  cases stop? with
  | none => exact (List.append_nil points).symm
  | some stop =>
      rw [closeWith_some, isLast, Option.any_some, ending]
      split
      · exact (List.append_nil points).symm
      · rfl

theorem head?_closeWith (ends : Option Double) (nonempty : points ≠ []) :
    (closeWith ends points).head? = points.head? := by
  cases ends with
  | none => rfl
  | some stop =>
      rw [closeWith_some]
      split
      · rfl
      · rw [List.head?_append_of_ne_nil _ nonempty]

/-- The last of the closed points is the end of the speech. -/
theorem exists_getLast?_closeWith (points : List Double) (isFinite : stop.isFinite = true) :
    ∃ last, (closeWith (some stop) points).getLast? = some last ∧ last.equals stop = true := by
  rw [closeWith_some]
  split
  next already =>
    rw [Option.any_eq_true] at already
    exact already
  next =>
    exact ⟨stop, by simp, (Binary.equals_iff_toRat_eq isFinite isFinite).2 rfl⟩

theorem isFinite_closeWith (finite : ∀ p ∈ points, p.isFinite = true)
    (isFinite : stop.isFinite = true) : ∀ p ∈ closeWith (some stop) points, p.isFinite = true := by
  rw [closeWith_some]
  split
  · exact finite
  · intro p member
    rw [List.mem_append, List.mem_singleton] at member
    rcases member with old | rfl
    · exact finite p old
    · exact isFinite

theorem mem_closeWith_of_mem {p : Double} (ends : Option Double) (member : p ∈ points) :
    p ∈ closeWith ends points := by
  cases ends with
  | none => exact member
  | some stop =>
      rw [closeWith_some]
      split
      · exact member
      · exact List.mem_append_left _ member

/-- Points that contain zero and never go back keep that up to the end of the speech exactly when
the end is not before zero, provided that they go no further than the later of the two. -/
theorem pairwise_closeWith_iff (finite : ∀ p ∈ points, p.isFinite = true)
    (isFinite : stop.isFinite = true) (zero : 0 ∈ points)
    (ordered : points.Pairwise fun p q => p.toRat ≤ q.toRat)
    (within : ∀ p ∈ points, p.toRat ≤ max 0 stop.toRat) :
    ((closeWith (some stop) points).Pairwise fun p q => p.toRat ≤ q.toRat) ↔ 0 ≤ stop.toRat := by
  constructor
  · intro closed
    obtain ⟨last, isLast, equal⟩ := exists_getLast?_closeWith points isFinite
    obtain ⟨front, split⟩ := List.getLast?_eq_some_iff.1 isLast
    have lastFinite : last.isFinite = true :=
      isFinite_closeWith finite isFinite last (by simp [split])
    rw [← (Binary.equals_iff_toRat_eq lastFinite isFinite).1 equal]
    have member := mem_closeWith_of_mem (some stop) zero
    rw [split, List.pairwise_append] at closed
    rw [split, List.mem_append, List.mem_singleton] at member
    rcases member with inFront | rfl
    · simpa using closed.2.2 0 inFront last (by simp)
    · simp
  · intro nonneg
    rw [closeWith_some]
    split
    · exact ordered
    · rw [List.pairwise_append]
      refine ⟨ordered, List.pairwise_singleton _ _, fun p member q isStop => ?_⟩
      rw [List.mem_singleton] at isStop
      exact isStop ▸ (within p member).trans (max_le nonneg le_rfl)

end CloseWith

/-! ## The cuts -/

/-- The points of the rule in force. -/
def points (t : Transcript) (pictures : Nat) (markers : List String) : List Double :=
  if markers.isEmpty then evenPoints t pictures else markerPoints t markers

theorem cuts_eq_closeWith :
    (cuts t pictures markers).2 = closeWith t.stop? (points t pictures markers) := by
  unfold cuts points
  split <;> rfl

theorem isFinite_points : ∀ p ∈ points t pictures markers, p.isFinite = true := by
  unfold points
  split
  · exact isFinite_evenPoints
  · exact apart_markerPoints.finite

theorem pairwise_points : (points t pictures markers).Pairwise fun p q => p.toRat ≤ q.toRat := by
  unfold points
  split
  · exact pairwise_evenPoints
  · exact pairwise_markerPoints

theorem zero_mem_points : 0 ∈ points t pictures markers := by
  unfold points
  split
  · exact List.mem_of_head? head?_evenPoints
  · exact zero_mem_markerPoints

theorem point_le {stop : Double} (ends : t.stop? = some stop) :
    ∀ p ∈ points t pictures markers, p.toRat ≤ max 0 stop.toRat := by
  unfold points
  split
  · exact fun _ => evenPoint_le ends
  · exact fun _ => markerPoint_le ends

/-- The points begin at zero exactly when no marker means a negative start. -/
theorem head?_points_eq_zero_iff :
    (points t pictures markers).head? = some 0 ↔
      ∀ marker ∈ markers, ∀ start, startOf? t.words marker = some start → 0 ≤ start := by
  unfold points
  split
  next empty =>
    rw [List.isEmpty_iff.1 empty]
    simpa using head?_evenPoints
  next =>
    rw [head?_markerPoints_eq_zero_iff]
    constructor
    · intro nonneg marker member start found
      have inFound : start ∈ foundStarts t markers := mem_foundStarts.2 ⟨marker, member, found⟩
      rw [Binary.le_iff_toRat_le (by simp) (isFinite_of_mem_foundStarts inFound)]
      simpa using nonneg start inFound
    · intro nonneg start inFound
      obtain ⟨marker, member, found⟩ := mem_foundStarts.1 inFound
      have before := nonneg marker member start found
      rw [Binary.le_iff_toRat_le (by simp) (isFinite_of_mem_foundStarts inFound)] at before
      simpa using before

theorem isFinite_cuts : ∀ p ∈ (cuts t pictures markers).2, p.isFinite = true := by
  rw [cuts_eq_closeWith]
  cases ends : t.stop? with
  | none => exact isFinite_points
  | some stop => exact isFinite_closeWith isFinite_points (Transcript.isFinite_of_stop? ends)

/-- Comparing the cuts themselves is comparing their values. -/
theorem pairwise_cuts_iff_values :
    (cuts t pictures markers).2.Pairwise (· ≤ ·) ↔
      (cuts t pictures markers).2.Pairwise fun p q => p.toRat ≤ q.toRat :=
  List.Pairwise.iff_of_mem fun {p q} hp hq =>
    Binary.le_iff_toRat_le (isFinite_cuts p hp) (isFinite_cuts q hq)

/-- **The order of the cuts.**  They begin at zero exactly when no marker means a word that starts
before zero, they never go back exactly when the speech does not end before zero, and they always
end when the speech ends. -/
theorem cuts_order (t : Transcript) (pictures : Nat) (markers : List String) :
    ((cuts t pictures markers).2.head? = some 0 ↔
      ∀ marker ∈ markers, ∀ start, startOf? t.words marker = some start → 0 ≤ start) ∧
    ((cuts t pictures markers).2.Pairwise (· ≤ ·) ↔ ∀ stop, t.stop? = some stop → 0 ≤ stop) ∧
    ∀ stop, t.stop? = some stop →
      ∃ last, (cuts t pictures markers).2.getLast? = some last ∧ last.equals stop = true := by
  refine ⟨?_, ?_, ?_⟩
  · rw [cuts_eq_closeWith, head?_closeWith _ (List.ne_nil_of_mem zero_mem_points)]
    exact head?_points_eq_zero_iff
  · rw [pairwise_cuts_iff_values, cuts_eq_closeWith]
    cases ends : t.stop? with
    | none => simpa [closeWith] using pairwise_points
    | some stop =>
        have isFinite := Transcript.isFinite_of_stop? ends
        rw [pairwise_closeWith_iff isFinite_points isFinite zero_mem_points pairwise_points
          (point_le ends)]
        simp [Binary.le_iff_toRat_le _ isFinite]
  · intro stop ends
    rw [cuts_eq_closeWith, ends]
    exact exists_getLast?_closeWith _ (Transcript.isFinite_of_stop? ends)

/-! ## A speech that starts too early -/

/-- A speech whose first word starts before zero. -/
def earlySpeech : Transcript := ⟨[⟨"a", -1, 2⟩, ⟨"b", 3, 4⟩], by decide +kernel⟩

/-- The cuts at a marker that means the early word do not begin at zero. -/
theorem head?_cuts_earlySpeech : (cuts earlySpeech 2 ["a"]).2.head? ≠ some 0 := by
  rw [cuts_eq_closeWith, head?_closeWith _ (List.ne_nil_of_mem zero_mem_points), Ne,
    head?_points_eq_zero_iff]
  intro nonneg
  have found : startOf? earlySpeech.words "a" = some (-1) := by decide +kernel
  have notBefore : ¬ (0 : Double) ≤ -1 := by decide +kernel
  exact notBefore (nonneg "a" (by simp) (-1) found)

end Slidecast.Slideshow
