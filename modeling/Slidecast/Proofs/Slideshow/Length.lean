import Slidecast.Proofs.Slideshow.Gaps

/-!
# The length of a slideshow

The durations in a playlist are read as exact decimals and summed up.  The times from cut to cut
add up to the last cut that the pictures reach (`spanned_eq`), a picture without a time adds the
fallback instead, and each picture is off by a millisecond at most
(`abs_sum_written_sub_le`, by induction on the pictures).

So a slideshow lasts as long as the speech if there is one cut more than there are pictures and
each of them has a time.  Otherwise it need not (`slideshow_length_differs`): cuts beyond the last
picture are not shown, and fallbacks are added to what was said.
-/

set_option autoImplicit false

namespace Slidecast.Slideshow

open Number Files Speech

/-! ## Reading durations -/

/-- The seconds of all durations in a playlist. -/
def durations? (text : String) : Option (List Rat) :=
  (durationTexts? text).bind (·.mapM seconds?)

theorem length_slides (fallback : Double) (paths : List Path) (row : List Double) :
    (slides fallback paths row).length = paths.length := by
  rw [← List.length_map Slide.path, map_path_slides]

theorem durations?_playlist (slides : List Slide) :
    durations? (playlist slides) =
      slides.mapM fun slide => seconds? (slide.duration.fixed 3) := by
  rw [durations?, durationTexts?_playlist, Option.bind_some, List.mapM_map]
  rfl

/-! ## A row of cuts -/

section Row

variable {c : Rat} {row : List Double} {fallback : Double}

/-- The time from a cut to a later one is written up to a millisecond and a part of itself, and
where nothing of it is left, it was at most half a millisecond. -/
structure Told (c : Rat) (start stop : Double) : Prop where
  finite : (roundMillis (stop - start)).isFinite = true
  forth : start.toRat ≤ stop.toRat
  left : 0 < roundMillis (stop - start) →
    |written (roundMillis (stop - start)) - (stop.toRat - start.toRat)| ≤
      1 / 1000 + c * (stop.toRat - start.toRat)
  nothing : ¬ 0 < roundMillis (stop - start) → stop.toRat - start.toRat ≤ 1 / 2000

/-- The time from the first cut to the next one; none without a next. -/
def firstGap : List Double → Rat
  | start :: stop :: _ => stop.toRat - start.toRat
  | _ => 0

theorem firstGap_nil : firstGap [] = 0 := rfl

theorem firstGap_singleton (start : Double) : firstGap [start] = 0 := rfl

/-- The time from the first cut to the last one that so many pictures reach. -/
def spanned : Nat → List Double → Rat
  | 0, _ => 0
  | pictures + 1, row => firstGap row + spanned pictures row.tail

/-- How many of so many pictures are shown as long as the fallback says. -/
def fallbacks (pictures : Nat) (row : List Double) : Nat :=
  (List.range pictures).countP fun index => decide (FallsBack (row.drop index))

theorem fallbacks_succ (pictures : Nat) (row : List Double) :
    fallbacks (pictures + 1) row =
      fallbacks pictures row.tail + if FallsBack row then 1 else 0 := by
  simp [fallbacks, List.range_succ_eq_map, List.countP_cons, List.countP_map, Function.comp_def]

theorem spanned_nil (pictures : Nat) : spanned pictures [] = 0 := by
  induction pictures with
  | zero => rfl
  | succ pictures ih => rw [spanned, firstGap_nil, List.tail_nil, ih, add_zero]

/-- **The times add up**: what lies between the first cut and the last one reached. -/
theorem spanned_eq {first last : Double} {rest : List Double} {pictures : Nat}
    (reached : ((first :: rest).take (pictures + 1)).getLast? = some last) :
    spanned pictures (first :: rest) = last.toRat - first.toRat := by
  induction pictures generalizing first rest with
  | zero =>
      obtain rfl : first = last := by simpa using reached
      exact (sub_self _).symm
  | succ pictures ih =>
      cases rest with
      | nil =>
          obtain rfl : first = last := by simpa using reached
          rw [spanned, firstGap_singleton, List.tail_cons, spanned_nil, add_zero, sub_self]
      | cons second rest =>
          have later : ((second :: rest).take (pictures + 1)).getLast? = some last := by
            simpa [List.take_succ_cons, List.getLast?_cons_cons] using reached
          rw [spanned, firstGap, List.tail_cons, ih later]
          ring

/-- Where the fallback is taken, there was no time or at most half a millisecond. -/
theorem firstGap_of_fallsBack (told : row.Pairwise (Told c)) (falls : FallsBack row) :
    0 ≤ firstGap row ∧ firstGap row ≤ 1 / 2000 := by
  match row with
  | [] => exact ⟨le_rfl, by norm_num [firstGap_nil]⟩
  | [start] => exact ⟨le_rfl, by norm_num [firstGap_singleton]⟩
  | start :: stop :: rest =>
      have two := List.rel_of_pairwise_cons told (List.mem_cons_self (a := stop))
      exact ⟨sub_nonneg.2 two.forth, two.nothing (falls _ rfl)⟩

/-- Where the fallback is not taken, there are two cuts, and something is left of their time. -/
theorem exists_told_of_not_fallsBack (told : row.Pairwise (Told c)) (holds : ¬ FallsBack row) :
    ∃ start stop, Told c start stop ∧ 0 < roundMillis (stop - start) ∧
      firstGap row = stop.toRat - start.toRat ∧
      ∀ fallback, durationAt fallback row = roundMillis (stop - start) := by
  match row with
  | [] => exact absurd (fun _ gap => by cases gap) holds
  | [start] => exact absurd (fun _ gap => by cases gap) holds
  | start :: stop :: rest =>
      have left : 0 < roundMillis (stop - start) := by
        by_contra nothing
        refine holds fun millis gap => ?_
        obtain rfl := Option.some.inj gap
        exact nothing
      exact ⟨start, stop, List.rel_of_pairwise_cons told List.mem_cons_self, left, rfl,
        fun fallback => if_pos left⟩

/-- The duration of one picture as it is written, against its time and the fallback. -/
theorem abs_written_durationAt_sub_le (nonneg : 0 ≤ c) (told : row.Pairwise (Told c))
    (pos : 0 < fallback) (usable : FallsBack row → fallback.isFinite = true) :
    |written (durationAt fallback row) -
        (firstGap row + if FallsBack row then fallback.toRat else 0)| ≤
      1 / 1000 + c * firstGap row := by
  by_cases falls : FallsBack row
  · obtain ⟨low, high⟩ := firstGap_of_fallsBack told falls
    have finite := usable falls
    have near := abs_written_sub_le finite (Binary.toRat_pos_of_pos finite pos).le
    have part := mul_nonneg nonneg low
    rw [durationAt_of_fallsBack falls, if_pos falls]
    rw [abs_le] at near ⊢
    constructor <;> linarith
  · obtain ⟨start, stop, two, left, gap, duration⟩ := exists_told_of_not_fallsBack told falls
    rw [duration, if_neg falls, gap, add_zero]
    exact two.left left

/-- The duration of one picture is read as it is written. -/
theorem seconds?_durationAt (told : row.Pairwise (Told c)) (pos : 0 < fallback)
    (usable : FallsBack row → fallback.isFinite = true) :
    seconds? ((durationAt fallback row).fixed 3) = some (written (durationAt fallback row)) := by
  by_cases falls : FallsBack row
  · rw [durationAt_of_fallsBack falls]
    exact seconds?_fixed (usable falls) (Binary.isNegative_eq_false_of_pos pos)
  · obtain ⟨start, stop, two, left, _, duration⟩ := exists_told_of_not_fallsBack told falls
    rw [duration]
    exact seconds?_fixed two.finite (Binary.isNegative_eq_false_of_pos left)

/-- **The durations of a row of pictures add up**, up to a millisecond for each and a part of the
whole: they are the time from the first cut to the last one reached, and the fallbacks. -/
theorem abs_sum_written_sub_le (nonneg : 0 ≤ c) (paths : List Path) (told : row.Pairwise (Told c))
    (pos : 0 < fallback)
    (usable : ∀ index < paths.length, FallsBack (row.drop index) → fallback.isFinite = true) :
    |((slides fallback paths row).map fun slide => written slide.duration).sum -
        (spanned paths.length row + fallbacks paths.length row * fallback.toRat)| ≤
      paths.length / 1000 + c * spanned paths.length row := by
  induction paths generalizing row with
  | nil => simp [slides, spanned, fallbacks]
  | cons path paths ih =>
      -- the tolerances add up as the times do, so that the sum may be split at the first picture
      have first := abs_written_durationAt_sub_le nonneg told pos (usable 0 (Nat.succ_pos _))
      have others := ih told.tail fun index within falls =>
        usable (index + 1) (Nat.succ_lt_succ within) (by rwa [List.drop_tail] at falls)
      rw [slides, List.map_cons, List.sum_cons, List.length_cons, spanned, fallbacks_succ]
      rw [abs_le] at first others ⊢
      push_cast
      split_ifs at first ⊢ <;> constructor <;> linarith

/-- All durations of a row of pictures are read as they are written. -/
theorem durations?_slides (paths : List Path) (told : row.Pairwise (Told c)) (pos : 0 < fallback)
    (usable : ∀ index < paths.length, FallsBack (row.drop index) → fallback.isFinite = true) :
    durations? (playlist (slides fallback paths row)) =
      some ((slides fallback paths row).map fun slide => written slide.duration) := by
  rw [durations?_playlist]
  induction paths generalizing row with
  | nil => rfl
  | cons path paths ih =>
      have first := seconds?_durationAt told pos (usable 0 (Nat.succ_pos _))
      have others := ih told.tail fun index within falls =>
        usable (index + 1) (Nat.succ_lt_succ within) (by rwa [List.drop_tail] at falls)
      rw [slides, List.mapM_cons, first, others]
      rfl

end Row

/-! ## The cuts of a speech -/

section Cuts

variable {t : Transcript} {pictures : Nat} {markers : List String} {stop : Double}

theorem Measured.told_of_lt {start stop : Double} (cuts : Measured start stop)
    (small : stop.toRat < 2 ^ 42) : Told 0 start stop where
  finite := let ⟨_, _, _, _, duration⟩ := cuts.exists_count; duration.1
  forth := cuts.forth
  left _ := by simpa using cuts.abs_written_sub_le_of_lt small
  nothing := cuts.gap_le_of_not_pos

theorem Measured.told {start stop : Double} (cuts : Measured start stop) :
    Told (1 / 2 ^ 50) start stop where
  finite := let ⟨_, _, _, _, duration⟩ := cuts.exists_count; duration.1
  forth := cuts.forth
  left left := (cuts.abs_written_sub_le_mul left).trans_eq (by rw [one_div_mul_eq_div])
  nothing := cuts.gap_le_of_not_pos

theorem head?_cuts
    (starts : ∀ marker ∈ markers, ∀ start, startOf? t.words marker = some start → 0 ≤ start) :
    (cuts t pictures markers).2.head? = some 0 := by
  rw [cuts_eq_closeWith, head?_closeWith _ (List.ne_nil_of_mem zero_mem_points)]
  exact head?_points_eq_zero_iff.2 starts

theorem pairwise_cuts (ends : t.stop? = some stop) (late : 0 ≤ stop.toRat) :
    (cuts t pictures markers).2.Pairwise fun p q => p.toRat ≤ q.toRat := by
  rw [cuts_eq_closeWith, ends, pairwise_closeWith_iff isFinite_points
    (Transcript.isFinite_of_stop? ends) zero_mem_points pairwise_points (point_le ends)]
  exact late

theorem exists_getLast?_cuts (ends : t.stop? = some stop) :
    ∃ last, (cuts t pictures markers).2.getLast? = some last ∧ last.equals stop = true := by
  rw [cuts_eq_closeWith, ends]
  exact exists_getLast?_closeWith _ (Transcript.isFinite_of_stop? ends)

/-- The cuts of a speech lie between zero and its end, if nothing is said before zero. -/
theorem cut_bounds (ends : t.stop? = some stop) (late : 0 ≤ stop.toRat)
    (starts : ∀ marker ∈ markers, ∀ start, startOf? t.words marker = some start → 0 ≤ start)
    {p : Double} (member : p ∈ (cuts t pictures markers).2) :
    0 ≤ p.toRat ∧ p.toRat ≤ stop.toRat := by
  constructor
  · have head : (cuts t pictures markers).2.head? = some 0 := head?_cuts starts
    have ordered : (cuts t pictures markers).2.Pairwise fun p q => p.toRat ≤ q.toRat :=
      pairwise_cuts ends late
    obtain ⟨rest, split⟩ := List.head?_eq_some_iff.1 head
    rw [split] at member ordered
    rcases List.mem_cons.1 member with rfl | later
    · rw [Binary.toRat_literal_zero]
    · simpa using List.rel_of_pairwise_cons ordered later
  · rw [cuts_eq_closeWith, ends, closeWith_some] at member
    split at member
    · simpa [late] using point_le ends p member
    · rcases List.mem_append.1 member with early | last
      · simpa [late] using point_le ends p early
      · obtain rfl := List.mem_singleton.1 last
        exact le_rfl

/-- The cuts of a speech can be measured, if its end is a number in milliseconds. -/
theorem pairwise_measured (ends : t.stop? = some stop) (late : 0 ≤ stop.toRat)
    (starts : ∀ marker ∈ markers, ∀ start, startOf? t.words marker = some start → 0 ≤ start)
    (counted : (stop * 1000).isFinite = true) :
    (cuts t pictures markers).2.Pairwise Measured := by
  have within : Binary.rounded Format.double (stop.toRat * 1000) < Format.double.limit := by
    by_contra beyond
    obtain ⟨zeroSign, product⟩ := Binary.exists_mul_eq (Transcript.isFinite_of_stop? ends)
      Binary.hasValue_thousand.1
    rw [Binary.hasValue_thousand.2] at product
    rw [product, Binary.nearest_of_le zeroSign (by linarith) (not_lt.1 beyond)] at counted
    cases counted
  refine (pairwise_cuts ends late).imp_of_mem fun {p q} hp hq before => ?_
  obtain ⟨qNonneg, qLe⟩ := cut_bounds ends late starts hq
  exact ⟨isFinite_cuts p hp, isFinite_cuts q hq, (cut_bounds ends late starts hp).1, before,
    (Binary.rounded_mono (by linarith) (by linarith)).trans_lt within⟩

theorem pairwise_told_of_lt (ends : t.stop? = some stop) (late : 0 ≤ stop.toRat)
    (starts : ∀ marker ∈ markers, ∀ start, startOf? t.words marker = some start → 0 ≤ start)
    (counted : (stop * 1000).isFinite = true) (small : stop.toRat < 2 ^ 42) :
    (cuts t pictures markers).2.Pairwise (Told 0) := by
  refine (pairwise_measured ends late starts counted).imp_of_mem fun {p q} _ hq two => ?_
  exact two.told_of_lt ((cut_bounds ends late starts hq).2.trans_lt small)

/-- The pictures reach one of the cuts, and what lies before it is the time they have. -/
theorem exists_reached (pictures : Nat)
    (starts : ∀ marker ∈ markers, ∀ start, startOf? t.words marker = some start → 0 ≤ start) :
    ∃ last, ((cuts t pictures markers).2.take (pictures + 1)).getLast? = some last ∧
      spanned pictures (cuts t pictures markers).2 = last.toRat := by
  have head : (cuts t pictures markers).2.head? = some 0 := head?_cuts starts
  obtain ⟨rest, split⟩ := List.head?_eq_some_iff.1 head
  rw [split]
  obtain ⟨last, reached⟩ : ∃ last, ((0 :: rest).take (pictures + 1)).getLast? = some last := by
    rw [List.take_succ_cons]
    exact ⟨_, List.getLast?_eq_some_getLast (List.cons_ne_nil _ _)⟩
  refine ⟨last, reached, ?_⟩
  rw [spanned_eq reached, Binary.toRat_literal_zero, sub_zero]

/-- The pictures reach the end of the speech, unless there are more cuts than that. -/
theorem toRat_reached (ends : t.stop? = some stop) {last : Double}
    (reached : ((cuts t pictures markers).2.take (pictures + 1)).getLast? = some last)
    (few : (cuts t pictures markers).2.length ≤ pictures + 1) : last.toRat = stop.toRat := by
  obtain ⟨last', isLast, equal⟩ : ∃ last',
      (cuts t pictures markers).2.getLast? = some last' ∧ last'.equals stop = true :=
    exists_getLast?_cuts ends
  rw [List.take_of_length_le few, isLast] at reached
  cases reached
  exact (Binary.equals_iff_toRat_eq (isFinite_cuts _ (List.mem_of_getLast? isLast))
    (Transcript.isFinite_of_stop? ends)).1 equal

/-- A slideshow lasts as long as the speech: the durations that are written sum up to the last of
all cuts, up to a millisecond for each picture. -/
def LastsAsSpeech (settings : Settings) (t : Transcript) (markers : List String)
    (pictures : List Path) : Prop :=
  ∃ times last,
    durations? (playlist (slidesOf t settings.fallback markers pictures)) = some times ∧
    (cuts t pictures.length markers).2.getLast? = some last ∧
    |times.sum - last.toRat| ≤ pictures.length / 1000

/-- **How long a slideshow lasts.**  Let nothing be said before zero, let the end of the speech be
a number in milliseconds, and the fallback be finite if it is used.  Then the durations that are
written sum up to the last cut that the pictures reach and the fallbacks that are taken: up to a
millisecond for each picture if the speech is shorter than `2 ^ 42` seconds, and otherwise up to
that and a small part of the time.  The last cut that is reached is the end of the speech unless
there are more cuts than pictures and the end.  So the slideshow lasts as long as the speech if
there is one cut more than there are pictures and no fallback is taken. -/
theorem slideshow_length (settings : Settings) (t : Transcript) (stop : Double)
    (markers : List String) (pictures : List Path) (valid : settings.validate = .ok ())
    (ends : t.stop? = some stop) (late : 0 ≤ stop)
    (starts : ∀ marker ∈ markers, ∀ start, startOf? t.words marker = some start → 0 ≤ start)
    (counted : (stop * 1000).isFinite = true)
    (usable : ∀ index < pictures.length,
      FallsBack ((cuts t pictures.length markers).2.drop index) →
        settings.fallback.isFinite = true) :
    (∃ times last,
      durations? (playlist (slidesOf t settings.fallback markers pictures)) = some times ∧
      times.length = pictures.length ∧
      ((cuts t pictures.length markers).2.take (pictures.length + 1)).getLast? = some last ∧
      ((cuts t pictures.length markers).2.length ≤ pictures.length + 1 →
        last.toRat = stop.toRat) ∧
      |times.sum - (last.toRat +
        fallbacks pictures.length (cuts t pictures.length markers).2 *
          settings.fallback.toRat)| ≤ pictures.length / 1000 + last.toRat / 2 ^ 50 ∧
      (stop.toRat < 2 ^ 42 →
        |times.sum - (last.toRat +
          fallbacks pictures.length (cuts t pictures.length markers).2 *
            settings.fallback.toRat)| ≤ pictures.length / 1000)) ∧
    ((cuts t pictures.length markers).2.length = pictures.length + 1 →
      fallbacks pictures.length (cuts t pictures.length markers).2 = 0 → stop.toRat < 2 ^ 42 →
        LastsAsSpeech settings t markers pictures) := by
  have stopNonneg : 0 ≤ stop.toRat := by
    rwa [Binary.le_iff_toRat_le Binary.isFinite_literal_zero (Transcript.isFinite_of_stop? ends),
      Binary.toRat_literal_zero] at late
  have pos := Settings.fallback_pos valid
  have long : (cuts t pictures.length markers).2.Pairwise (Told (1 / 2 ^ 50)) :=
    (pairwise_measured ends stopNonneg starts counted).imp Measured.told
  obtain ⟨last, reached, total⟩ := exists_reached (t := t) pictures.length starts
  have near : stop.toRat < 2 ^ 42 → |((slidesOf t settings.fallback markers pictures).map
      fun slide => written slide.duration).sum - (last.toRat +
        fallbacks pictures.length (cuts t pictures.length markers).2 *
          settings.fallback.toRat)| ≤ pictures.length / 1000 := by
    intro small
    have sum := abs_sum_written_sub_le le_rfl pictures
      (pairwise_told_of_lt ends stopNonneg starts counted small) pos usable
    rwa [total, zero_mul, add_zero] at sum
  have read := durations?_slides pictures long pos usable
  refine ⟨⟨_, last, read, ?_, reached, toRat_reached ends reached, ?_, near⟩, ?_⟩
  · rw [List.length_map, length_slides]
  · have sum := abs_sum_written_sub_le (by norm_num) pictures long pos usable
    rwa [total, one_div_mul_eq_div] at sum
  · intro count unwritten small
    have sum := near small
    rw [unwritten, Nat.cast_zero, zero_mul, add_zero] at sum
    rw [List.take_of_length_le count.le] at reached
    exact ⟨_, last, read, reached, sum⟩

/-- One picture lasts as long as the word; a second one is shown as long as the fallback says. -/
theorem slideshow_length_oneWord :
    (({} : Settings).validate = .ok () ∧ oneWord.stop? = some 1 ∧ (0 : Double) ≤ 1 ∧
      ((1 : Double) * 1000).isFinite = true) ∧
    LastsAsSpeech {} oneWord [] [⟨"p"⟩] ∧
    ∃ times, durations? (playlist (slidesOf oneWord ({} : Settings).fallback [] [⟨"p"⟩, ⟨"q"⟩])) =
      some times ∧ |times.sum - (1 + 1 * 2)| ≤ 2 / 1000 := by
  have valid : ({} : Settings).validate = .ok () := by decide +kernel
  have ends : oneWord.stop? = some 1 := by decide +kernel
  have late : (0 : Double) ≤ 1 := by decide +kernel
  have counted : ((1 : Double) * 1000).isFinite = true := by decide +kernel
  have fallbackFinite : ({} : Settings).fallback.isFinite = true := by decide +kernel
  have small : (1 : Double).toRat < 2 ^ 42 := by decide +kernel
  refine ⟨⟨valid, ends, late, counted⟩, ?_, ?_⟩
  · exact (slideshow_length {} oneWord 1 [] [⟨"p"⟩] valid ends late (by simp) counted
      fun _ _ _ => fallbackFinite).2 (by decide +kernel) (by decide +kernel) small
  · obtain ⟨⟨times, last, written, _, _, isEnd, _, near⟩, _⟩ :=
      slideshow_length {} oneWord 1 [] [⟨"p"⟩, ⟨"q"⟩] valid ends late (by simp) counted
        fun _ _ _ => fallbackFinite
    have one : (1 : Double).toRat = 1 := by decide +kernel
    have two : ({} : Settings).fallback.toRat = 2 := by decide +kernel
    have taken : fallbacks 2 (cuts oneWord 2 []).2 = 1 := by decide +kernel
    have bound := near small
    rw [isEnd (by decide +kernel), one, two] at bound
    simp only [List.length_cons, List.length_nil, Nat.zero_add, Nat.reduceAdd, taken] at bound
    exact ⟨times, written, by simpa using bound⟩

theorem not_lastsAsSpeech {settings : Settings} {t : Transcript} {markers : List String}
    {pictures : List Path} (times : List Rat) (last : Double)
    (written : (slidesOf t settings.fallback markers pictures).mapM
      (fun slide => seconds? (slide.duration.fixed 3)) = some times)
    (isLast : (cuts t pictures.length markers).2.getLast? = some last)
    (far : (pictures.length : Rat) / 1000 < |times.sum - last.toRat|) :
    ¬ LastsAsSpeech settings t markers pictures := by
  rintro ⟨times', last', written', isLast', near⟩
  rw [durations?_playlist, written] at written'
  rw [isLast] at isLast'
  cases written'
  cases isLast'
  exact absurd near (not_le.2 far)

/-- A speech of two words. -/
def twoWords : Transcript := ⟨[⟨"a", 0, 1⟩, ⟨"b", 2, 3⟩], by decide +kernel⟩

theorem cuts_twoWords : (cuts twoWords 1 ["b"]).2 = [0, 2, 3] := by
  have found : (foundStarts twoWords ["b"]).foldl addPoint [0] = [0, 2] := by decide +kernel
  have sorted : markerPoints twoWords ["b"] = [0, 2] := by
    show ((foundStarts twoWords ["b"]).foldl addPoint [0]).mergeSort Binary.sortsBefore = _
    rw [found]
    exact List.mergeSort_of_pairwise (by decide +kernel)
  show closeWith twoWords.stop? (markerPoints twoWords ["b"]) = _
  rw [sorted]
  decide +kernel

/-- A speech of one word that lasts longer than numbers can count milliseconds. -/
def ageOfWord : Transcript := ⟨[⟨"a", 0, 9040088085194.375⟩], by decide +kernel⟩

/-- **A slideshow need not last as long as the speech**: what is said after the last picture is
left out if there are fewer pictures than times to show them, a fallback is added where a picture
has no time, and very long times are not written up to a millisecond. -/
theorem slideshow_length_differs :
    ({} : Settings).validate = .ok () ∧
    ¬ LastsAsSpeech {} twoWords ["b"] [⟨"p"⟩] ∧
    ¬ LastsAsSpeech {} oneWord [] [⟨"p"⟩, ⟨"q"⟩] ∧
    ¬ LastsAsSpeech {} ageOfWord [] [⟨"p"⟩] := by
  refine ⟨by decide +kernel, ?_, ?_, ?_⟩
  · refine not_lastsAsSpeech [2] 3 ?_ ?_ ?_
    · rw [slidesOf, List.length_singleton, cuts_twoWords]
      decide +kernel
    · rw [List.length_singleton, cuts_twoWords]
      rfl
    · decide +kernel
  · refine not_lastsAsSpeech [1, 2] 1 ?_ ?_ ?_ <;> decide +kernel
  · refine not_lastsAsSpeech [9040088085194377 / 1000] 9040088085194.375
      ?_ ?_ ?_ <;> decide +kernel

end Cuts

end Slidecast.Slideshow
