import Slidecast.Proofs.Slideshow.Cuts

/-!
# Even cuts

Without markers, the words are dealt out evenly to the pictures.  The point behind a share of
words is the latest of zero and the ends of the shares so far, none of them taken to be later than
the end of the speech: a running maximum, which the scan over the shares keeps by comparing each
end with the point before it (`isLargest_sharePoint`).

`even_cuts_exact` says what the cuts are, and that the words by which the shares end are there for
any number of pictures, also where there are more pictures than words.
-/

set_option autoImplicit false

namespace Slidecast.Slideshow

open Number Speech

/-! ## The running maximum -/

section SharePoints

variable {words : List Word} {speechEnd : Double} {size : Nat}

/-- The largest number of a row in which the first two have been compared. -/
theorem isLargest_cons_cons {p q x : Double} {rest : List Double} (hp : p.isFinite = true)
    (hq : q.isFinite = true) (largest : x.IsLargest (q.larger p :: rest)) :
    x.IsLargest (p :: q :: rest) := by
  have compared : p ≤ q.larger p ∧ q ≤ q.larger p := by
    have finite := Binary.isFinite_larger hq hp
    rw [Binary.le_iff_toRat_le hp finite, Binary.le_iff_toRat_le hq finite,
      Binary.toRat_larger hq hp]
    exact ⟨le_max_right _ _, le_max_left _ _⟩
  obtain ⟨member, bound⟩ := largest
  rw [List.forall_mem_cons] at bound
  refine ⟨?_, ?_⟩
  · rcases List.mem_cons.1 member with rfl | later
    · rcases Binary.larger_eq_or q p with same | same <;> simp [same]
    · exact List.mem_cons_of_mem _ (List.mem_cons_of_mem _ later)
  · rw [List.forall_mem_cons, List.forall_mem_cons]
    exact ⟨Binary.le_trans compared.1 bound.1, Binary.le_trans compared.2 bound.1, bound.2⟩

/-- The end of the last word of a share, but not after the end of the speech. -/
def clippedEnd (words : List Word) (speechEnd : Double) (size share : Nat) : Double :=
  (shareEnd words speechEnd size share).smaller speechEnd

theorem isFinite_clippedEnd (finite : ∀ w ∈ words, w.stop.isFinite = true)
    (ends : speechEnd.isFinite = true) (share : Nat) :
    (clippedEnd words speechEnd size share).isFinite = true :=
  Binary.isFinite_smaller (isFinite_shareEnd finite ends size share) ends

theorem length_sharePoints (more share : Nat) (previous : Double) :
    (sharePoints words speechEnd size more share previous).length = more := by
  induction more generalizing share previous with
  | zero => rfl
  | succ more ih => rw [sharePoints_succ, List.length_cons, ih]

/-- **The points of the shares are a running maximum** of the clipped ends, from the point before
them on. -/
theorem isLargest_sharePoint (finite : ∀ w ∈ words, w.stop.isFinite = true)
    (ends : speechEnd.isFinite = true) {more k : Nat} (wanted : k < more) (share : Nat)
    {previous : Double} (starts : previous.isFinite = true) :
    ∃ point, (sharePoints words speechEnd size more share previous)[k]? = some point ∧
      point.IsLargest (previous ::
        (List.range (k + 1)).map fun j => clippedEnd words speechEnd size (share + j)) := by
  induction more generalizing share previous k with
  | zero => exact absurd wanted (Nat.not_lt_zero k)
  | succ more ih =>
      have clipped : (clippedEnd words speechEnd size share).isFinite = true :=
        isFinite_clippedEnd finite ends share
      have first := Binary.isFinite_larger clipped starts
      rw [sharePoints_succ]
      cases k with
      | zero =>
          refine ⟨_, rfl, isLargest_cons_cons starts clipped ⟨List.mem_cons_self, ?_⟩⟩
          intro y member
          obtain rfl := List.mem_singleton.1 member
          exact Binary.le_refl_of_isFinite first
      | succ k =>
          obtain ⟨point, found, largest⟩ := ih (Nat.lt_of_succ_lt_succ wanted) (share + 1) first
          have shift : (fun j => clippedEnd words speechEnd size (share + j)) ∘ Nat.succ =
              fun j => clippedEnd words speechEnd size (share + 1 + j) := by
            funext j
            exact congrArg (clippedEnd words speechEnd size) (Nat.succ_add_eq_add_succ share j).symm
          refine ⟨point, found, ?_⟩
          rw [List.range_succ_eq_map, List.map_cons, List.map_map, shift]
          exact isLargest_cons_cons starts clipped largest

end SharePoints

/-! ## The words by which shares end -/

variable {t : Transcript} {pictures share : Nat}

/-- The number of the word by which the first shares end, when words are dealt out evenly: the
last of their words, and the first word of all as long as the shares are empty. -/
def shareWord (t : Transcript) (pictures share : Nat) : Nat :=
  max 1 (share * (t.size / pictures)) - 1

/-- No more words are dealt out than there are. -/
theorem share_mul_le (before : share < pictures) : share * (t.size / pictures) ≤ t.size :=
  (Nat.mul_le_mul_right _ before.le).trans (Nat.mul_div_le t.size pictures)

theorem shareWord_lt (spoken : 0 < t.size) (before : share < pictures) :
    shareWord t pictures share < t.size := by
  have dealt : share * (t.size / pictures) ≤ t.size := share_mul_le before
  unfold shareWord
  omega

theorem lastOfShare_eq (before : share < pictures) :
    lastOfShare t.size (t.size / pictures) share = shareWord t pictures share := by
  rw [lastOfShare, shareWord, min_eq_left (share_mul_le before)]

/-- The ends of the words by which the first shares end, but none after the end of the speech. -/
def clippedEnds (t : Transcript) (stop : Double) (pictures shares : Nat) : List Double :=
  (List.range shares).filterMap fun k =>
    t.words[shareWord t pictures (k + 1)]?.map fun w => w.stop.smaller stop

theorem size_pos_of_stop? {stop : Double} (ends : t.stop? = some stop) : 0 < t.size := by
  obtain ⟨front, last, split, _⟩ := Transcript.exists_last_of_stop? ends
  simp [Transcript.size, split]

/-- All words are there by which shares end. -/
theorem clippedEnds_eq {stop : Double} (ends : t.stop? = some stop) {shares : Nat}
    (few : shares < pictures) :
    clippedEnds t stop pictures shares =
      (List.range shares).map fun k =>
        clippedEnd t.words stop (t.size / pictures) (1 + k) := by
  rw [clippedEnds, ← List.filterMap_eq_map]
  refine List.filterMap_congr fun k member => ?_
  have before : k + 1 < pictures := by
    rw [List.mem_range] at member
    omega
  have within : shareWord t pictures (k + 1) < t.words.length :=
    shareWord_lt (size_pos_of_stop? ends) before
  have same : lastOfShare t.words.length (t.size / pictures) (1 + k) =
      shareWord t pictures (k + 1) := by
    rw [Nat.add_comm 1 k]
    exact lastOfShare_eq before
  simp only [Function.comp_apply, clippedEnd, shareEnd, same, List.getElem?_eq_getElem within,
    Option.map_some, Option.getD_some]

/-! ## The cuts -/

theorem evenPoints_of_stop? {stop : Double} (ends : t.stop? = some stop) :
    evenPoints t pictures =
      0 :: sharePoints t.words stop (t.size / pictures) (pictures - 1) 1 0 := by
  rw [evenPoints, ends]

/-- The point behind the first shares is the latest of zero and their clipped ends. -/
theorem isLargest_evenPoint {stop : Double} (ends : t.stop? = some stop) (first : 1 ≤ share)
    (before : share < pictures) :
    ∃ point, (evenPoints t pictures)[share]? = some point ∧
      point.IsLargest (0 :: clippedEnds t stop pictures share) := by
  obtain ⟨k, rfl⟩ := Nat.exists_eq_add_of_le' first
  rw [evenPoints_of_stop? ends, List.getElem?_cons_succ, clippedEnds_eq ends before]
  exact isLargest_sharePoint (fun _ => Transcript.isFinite_stop)
    (Transcript.isFinite_of_stop? ends) (by omega) 1 (by simp)

theorem length_evenPoints {stop : Double} (ends : t.stop? = some stop) (shown : 0 < pictures) :
    (evenPoints t pictures).length = pictures := by
  rw [evenPoints_of_stop? ends, List.length_cons, length_sharePoints]
  omega

/-- An even point lies between zero and the later of zero and the end of the speech. -/
theorem evenPoint_bounds {stop point : Double} (ends : t.stop? = some stop)
    (member : point ∈ evenPoints t pictures) : 0 ≤ point ∧ point ≤ (0 : Double).larger stop := by
  have finite := isFinite_evenPoints point member
  have stops := Transcript.isFinite_of_stop? ends
  have zero : (0 : Double).isFinite = true := Binary.isFinite_literal_zero
  rw [Binary.le_iff_toRat_le zero finite,
    Binary.le_iff_toRat_le finite (Binary.isFinite_larger zero stops),
    Binary.toRat_larger zero stops, Binary.toRat_literal_zero]
  refine ⟨?_, evenPoint_le ends member⟩
  rw [evenPoints_of_stop? ends] at member
  rcases List.mem_cons.1 member with rfl | later
  · simp
  · simpa using (sharePoints_bounds (fun _ => Transcript.isFinite_stop) stops _ _ zero _ later).1

theorem length_ending (stop? : Option Double) (last : Double) :
    (ending stop? last).length = 0 ∨ (ending stop? last).length = 1 := by
  unfold ending
  split
  · exact .inl rfl
  · split
    · exact .inl rfl
    · exact .inr rfl

/-- **The cuts of even shares.**  Every share ends by a word that is there.  The row begins with
zero, the point behind the first `share` shares is the latest of zero and the ends of their words,
none taken to be later than the end of the speech, and behind the row stands the end of the
speech, if the row does not end with it.  So there are as many cuts as pictures or one more, the
points never go back, and each lies between zero and the later of zero and the end. -/
theorem even_cuts_exact (t : Transcript) (stop : Double) (pictures : Nat)
    (ends : t.stop? = some stop) (shown : 0 < pictures) :
    (∀ share, 1 ≤ share → share < pictures →
      share * (t.size / pictures) ≤ t.size ∧ shareWord t pictures share < t.size) ∧
    ∃ row last, row.length = pictures ∧ row.head? = some 0 ∧ row.getLast? = some last ∧
      cuts t pictures [] = (.even, row ++ ending (some stop) last) ∧
      ((cuts t pictures []).2.length = pictures ∨ (cuts t pictures []).2.length = pictures + 1) ∧
      (∀ share, 1 ≤ share → share < pictures → ∃ point, row[share]? = some point ∧
        point.IsLargest (0 :: clippedEnds t stop pictures share)) ∧
      row.Pairwise (· ≤ ·) ∧ ∀ point ∈ row, 0 ≤ point ∧ point ≤ (0 : Double).larger stop := by
  refine ⟨fun share _ before =>
    ⟨share_mul_le before, shareWord_lt (size_pos_of_stop? ends) before⟩, ?_⟩
  have count : (evenPoints t pictures).length = pictures := length_evenPoints ends shown
  have filled : evenPoints t pictures ≠ [] := List.ne_nil_of_length_pos (by omega)
  have isLast := List.getLast?_eq_some_getLast filled
  obtain ⟨last, isLast⟩ : ∃ last, (evenPoints t pictures).getLast? = some last :=
    ⟨_, List.getLast?_eq_some_getLast filled⟩
  have whole : cuts t pictures [] = (.even, evenPoints t pictures ++ ending (some stop) last) := by
    rw [← ends, ← closeWith_eq_append isLast]
    rfl
  refine ⟨_, last, count, head?_evenPoints, isLast, whole, ?_, ?_, ?_, ?_⟩
  · rw [whole, List.length_append, count]
    have added := length_ending (some stop) last
    omega
  · exact fun share first before => isLargest_evenPoint ends first before
  · refine pairwise_evenPoints.imp_of_mem fun {p q} hp hq forth => ?_
    exact (Binary.le_iff_toRat_le (isFinite_evenPoints p hp) (isFinite_evenPoints q hq)).2 forth
  · exact fun point member => evenPoint_bounds ends member

/-- A speech whose first word lasts longer than the whole. -/
def overlap : Transcript :=
  ⟨[⟨"a", 0, 3⟩, ⟨"b", 0.5, 1⟩, ⟨"c", 0.5, 0.75⟩, ⟨"d", 0.75, 2⟩], by decide +kernel⟩

/-- The first point is clipped to the end of the speech, and no other one gets past it. -/
theorem even_cuts_overlap :
    overlap.stop? = some 2 ∧ 0 < 4 ∧ cuts overlap 4 [] = (.even, [0, 2, 2, 2]) ∧
    ∃ point, (cuts overlap 4 []).2[2]? = some point ∧
      point.IsLargest (0 :: clippedEnds overlap 2 4 2) := by
  have ends : overlap.stop? = some 2 := by decide +kernel
  obtain ⟨_, row, last, count, _, _, whole, _, latest, _⟩ :=
    even_cuts_exact overlap 2 4 ends (by decide)
  refine ⟨ends, by decide, by decide +kernel, ?_⟩
  rw [whole, List.getElem?_append_left (by omega)]
  exact latest 2 (by decide) (by decide)

end Slidecast.Slideshow
