import Slidecast.Proofs.Number.Arithmetic
import Slidecast.Proofs.Subtitle.Groups

/-!
# Highlights in step with the speech

A word is lit from its start to that of the next word, the last word of a line until it stops.  The
time is rounded once when the two are subtracted, raised to a hundredth of a second, and rounded to
whole hundredths for its mark.  For times of up to a million seconds a highlight is less than a
microsecond too short and hardly more than a hundredth of a second too long, and a mark is about half
a hundredth off besides (`spans_beat`).

The exact times of a line add up to what has passed since the line started (`sum_take_gaps`), so the
errors do no more than add up (`fills_of_forall₂`), and every caption keeps in step with its words
(`highlights_in_step`).
-/

set_option autoImplicit false

namespace Slidecast.Subtitle

open Number Speech

/-! ## One highlight -/

section Beat

variable {x y : Double} {b : Beat}

/-- A time of at most a million seconds, before or after zero. -/
structure IsModerate (x : Double) : Prop where
  finite : x.isFinite = true
  small : |x.toRat| ≤ 1000000

/-- A beat is lit for a time, up to rounding and the shortest highlight. -/
structure Spans (gap : Rat) (b : Beat) : Prop where
  finite : b.highlight.isFinite = true
  shortest : 1 / 100 ≤ b.highlight.toRat
  marked : 1 ≤ b.centiseconds
  least : gap - 1 / 1000000 ≤ b.highlight.toRat
  most : b.highlight.toRat ≤ gap + 10001 / 1000000
  fewest : 100 * gap - 501 / 1000 ≤ b.centiseconds
  furthest : (b.centiseconds : Rat) ≤ 100 * gap + 1501 / 1000

/-- The shortest highlight is a little more than a hundredth of a second. -/
theorem hasValue_shortestHighlight :
    shortestHighlight.HasValue (5764607523034235 / 576460752303423488) := by decide +kernel

/-- From one time to a later one: less than a thousandth of a microsecond is lost or won. -/
theorem exists_hasValue_sub (first : IsModerate x) (second : IsModerate y)
    (forth : x.toRat ≤ y.toRat) :
    ∃ r, (y - x).HasValue r ∧ 0 ≤ r ∧ |r - (y.toRat - x.toRat)| ≤ 1 / 1000000000 := by
  obtain ⟨zeroSign, difference⟩ := Binary.exists_sub_eq second.finite first.finite
  obtain ⟨_, high⟩ := abs_le.1 second.small
  obtain ⟨low, _⟩ := abs_le.1 first.small
  have nonneg : 0 ≤ y.toRat - x.toRat := sub_nonneg.2 forth
  have near := Binary.abs_rounded_sub_le_of_lt (f := Format.double) (e := 21) nonneg
    (by norm_num; linarith) (by decide)
  have within : Binary.rounded Format.double (y.toRat - x.toRat) < Format.double.limit := by
    refine lt_trans ?_ (Binary.two_zpow_lt_limit_double (by decide : (22 : Int) < 1024))
    have most := (abs_le.1 near).2
    norm_num [Format.double] at most ⊢
    linarith
  refine ⟨_, difference ▸ Binary.hasValue_nearest zeroSign nonneg within,
    Binary.rounded_nonneg nonneg, near.trans ?_⟩
  norm_num [Format.double]

/-- A highlight is counted in hundredths of a second: half a hundredth is lost or won when they are
rounded, and next to nothing when they are taken. -/
theorem abs_centiseconds_sub_le (finite : b.highlight.isFinite = true)
    (shortest : 1 / 100 ≤ b.highlight.toRat) (longest : b.highlight.toRat ≤ 2000001) :
    1 ≤ b.centiseconds ∧ |(b.centiseconds : Rat) - 100 * b.highlight.toRat| ≤ 5001 / 10000 := by
  obtain ⟨zeroSign, product⟩ := Binary.exists_mul_eq finite Binary.hasValue_hundred.1
  rw [Binary.hasValue_hundred.2] at product
  have nonneg : 0 ≤ b.highlight.toRat * 100 := by linarith
  have near := Binary.abs_rounded_sub_le_of_lt (f := Format.double) (e := 28) nonneg
    (by norm_num; linarith) (by decide)
  have one : 1 ≤ Binary.rounded Format.double (b.highlight.toRat * 100) := by
    rw [← Binary.rounded_one (f := Format.double) (by decide)]
    exact Binary.rounded_mono (by norm_num) (by linarith)
  have within : Binary.rounded Format.double (b.highlight.toRat * 100) < Format.double.limit := by
    refine lt_trans ?_ (Binary.two_zpow_lt_limit_double (by decide : (29 : Int) < 1024))
    have most := (abs_le.1 near).2
    norm_num [Format.double] at most ⊢
    linarith
  have hundredths := Binary.hasValue_nearest zeroSign nonneg within
  rw [← product] at hundredths
  have counted : b.centiseconds =
      max (min longestHighlight ⌊(b.highlight * 100).toRat + 1 / 2⌋.toNat) 1 :=
    congrArg (max · 1) (Binary.truncate_round longestHighlight hundredths.1 (by
      rw [hundredths.2]
      linarith))
  rw [hundredths.2] at counted
  generalize Binary.rounded Format.double (b.highlight.toRat * 100) = p at *
  obtain ⟨low, high⟩ := abs_le.1 near
  have floorLow := Int.sub_one_lt_floor (p + 1 / 2)
  have floorHigh := Int.floor_le (p + 1 / 2)
  have floorPos : 1 ≤ ⌊p + 1 / 2⌋ := Int.le_floor.2 (by push_cast; linarith)
  generalize ⌊p + 1 / 2⌋ = k at *
  have few : k ≤ 2 ^ 29 := by
    have bound : (k : Rat) ≤ 2 ^ 29 := by
      norm_num [Format.double] at high ⊢
      linarith
    exact_mod_cast bound
  -- neither the limit nor the least mark is reached
  have same : (b.centiseconds : Int) = k := by
    rw [counted]
    have limit : longestHighlight = 2 ^ 32 - 1 := rfl
    omega
  have cast : (b.centiseconds : Rat) = k := by exact_mod_cast same
  refine ⟨by omega, ?_⟩
  rw [cast, abs_le]
  norm_num [Format.double] at low high ⊢
  constructor <;> linarith

/-- **A beat from one time to a later one.** -/
theorem spans_beat (first : IsModerate x) (second : IsModerate y) (forth : x.toRat ≤ y.toRat)
    (text : String) :
    Spans (y.toRat - x.toRat) ⟨text, (y - x).larger shortestHighlight⟩ := by
  obtain ⟨r, ⟨finite, value⟩, nonneg, near⟩ := exists_hasValue_sub first second forth
  obtain ⟨low, high⟩ := abs_le.1 near
  have gapSmall : y.toRat - x.toRat ≤ 2000000 := by
    have := (abs_le.1 second.small).2
    have := (abs_le.1 first.small).1
    linarith
  have highlightFinite := Binary.isFinite_larger finite hasValue_shortestHighlight.1
  have highlight := Binary.toRat_larger finite hasValue_shortestHighlight.1
  rw [value, hasValue_shortestHighlight.2] at highlight
  have least : r ≤ ((y - x).larger shortestHighlight).toRat := highlight ▸ le_max_left _ _
  have shortest : 1 / 100 ≤ ((y - x).larger shortestHighlight).toRat := by
    rw [highlight]
    exact le_max_of_le_right (by norm_num)
  have most : ((y - x).larger shortestHighlight).toRat ≤ r + 100001 / 10000000 := by
    rw [highlight]
    refine max_le (by linarith) ?_
    norm_num
    linarith
  obtain ⟨marked, counted⟩ := abs_centiseconds_sub_le
    (b := ⟨text, (y - x).larger shortestHighlight⟩) highlightFinite shortest (by linarith)
  obtain ⟨few, many⟩ := abs_le.1 counted
  exact {
    finite := highlightFinite
    shortest := shortest
    marked := marked
    least := by linarith
    most := by linarith
    fewest := by linarith
    furthest := by linarith }

end Beat

/-! ## Lines -/

/-- The times for which the words of a line would be lit exactly. -/
def gaps : List Word → List Rat
  | [] => []
  | [w] => [w.stop.toRat - w.start.toRat]
  | v :: w :: words => (w.start.toRat - v.start.toRat) :: gaps (w :: words)

/-- When a word of a line starts; behind the last one, when the line stops. -/
def onset (words : List Word) (stop : Double) (j : Nat) : Double :=
  (words[j]?.map Word.start).getD stop

/-- A line of words at moderate times, in order. -/
structure IsSteady (line : List Word) : Prop where
  starts : ∀ w ∈ line, IsModerate w.start
  stops : ∀ w ∈ line, IsModerate w.stop
  forth : ∀ w ∈ line, w.start.toRat ≤ w.stop.toRat
  ordered : line.Pairwise fun v w => v.start.toRat ≤ w.start.toRat

/-- Some beats take as long as has passed, up to a microsecond less and a hundredth of a second more
for each of them, and their marks up to half a hundredth less and one and a half more. -/
structure Fills (passed : Rat) (bs : List Beat) : Prop where
  least : passed - bs.length * (1 / 1000000) ≤ (bs.map fun b => b.highlight.toRat).sum
  most : (bs.map fun b => b.highlight.toRat).sum ≤ passed + bs.length * (10001 / 1000000)
  fewest : 100 * passed - bs.length * (501 / 1000) ≤ ((bs.map Beat.centiseconds).sum : Nat)
  furthest : ((bs.map Beat.centiseconds).sum : Nat) ≤ 100 * passed + bs.length * (1501 / 1000)

/-- A caption keeps in step with the words of its line: when any of them starts, and when the line
stops, the beats so far have taken as long as has passed since the line started. -/
structure InStep (line : List Word) (c : Caption) : Prop where
  texts : c.beats.map Beat.text = line.map Word.text
  lit : ∀ b ∈ c.beats,
    b.highlight.isFinite = true ∧ 1 / 100 ≤ b.highlight.toRat ∧ 1 ≤ b.centiseconds
  fills : ∀ j ≤ c.beats.length,
    Fills ((onset line c.stop j).toRat - c.start.toRat) (c.beats.take j)

/-- The beats of a line span its gaps. -/
theorem forall₂_spans {line : List Word} (steady : IsSteady line) :
    List.Forall₂ Spans (gaps line) (beats line) := by
  fun_induction beats line with
  | case1 => exact .nil
  | case2 w =>
      have member : w ∈ [w] := List.mem_singleton_self w
      exact .cons (spans_beat (steady.starts w member) (steady.stops w member)
        (steady.forth w member) w.text) .nil
  | case3 v w words ih =>
      have inFront : v ∈ v :: w :: words := List.mem_cons_self
      have next : w ∈ v :: w :: words := List.mem_cons_of_mem v List.mem_cons_self
      refine .cons (spans_beat (steady.starts v inFront) (steady.starts w next)
        (List.rel_of_pairwise_cons steady.ordered List.mem_cons_self) v.text) (ih ?_)
      exact {
        starts := fun u member => steady.starts u (List.mem_cons_of_mem v member)
        stops := fun u member => steady.stops u (List.mem_cons_of_mem v member)
        forth := fun u member => steady.forth u (List.mem_cons_of_mem v member)
        ordered := steady.ordered.of_cons }

/-- **The gaps add up** to the time that has passed since the line started. -/
theorem sum_take_gaps {line : List Word} {first last : Word} (begins : first ∈ line.head?)
    (ends : last ∈ line.getLast?) {j : Nat} (within : j ≤ line.length) :
    ((gaps line).take j).sum = (onset line last.stop j).toRat - first.start.toRat := by
  fun_induction gaps line generalizing first j with
  | case1 => cases begins
  | case2 w =>
      obtain rfl : w = first := Option.some.inj begins
      obtain rfl : w = last := Option.some.inj ends
      cases j with
      | zero => simp [onset]
      | succ j => simp [onset]
  | case3 v w words ih =>
      obtain rfl : v = first := Option.some.inj begins
      cases j with
      | zero => simp [onset]
      | succ j =>
          rw [List.getLast?_cons_cons] at ends
          have begins' : w ∈ (w :: words).head? := rfl
          have later := ih begins' ends (j := j) (Nat.le_of_succ_le_succ within)
          have same : onset (v :: w :: words) last.stop (j + 1) =
              onset (w :: words) last.stop j := rfl
          rw [List.take_succ_cons, List.sum_cons, later, same]
          ring

/-- **The errors add up**, and do no more. -/
theorem fills_of_forall₂ {gs : List Rat} {bs : List Beat} (all : List.Forall₂ Spans gs bs) :
    Fills gs.sum bs := by
  induction all with
  | nil => exact ⟨by simp, by simp, by simp, by simp⟩
  | @cons gap b gs bs spans _ ih =>
      obtain ⟨least, most, fewest, furthest⟩ := ih
      have first := spans.least
      have second := spans.most
      have third := spans.fewest
      have fourth := spans.furthest
      constructor
      · simp only [List.sum_cons, List.map_cons, List.length_cons, Nat.cast_add, Nat.cast_one]
        linarith
      · simp only [List.sum_cons, List.map_cons, List.length_cons, Nat.cast_add, Nat.cast_one]
        linarith
      · simp only [List.sum_cons, List.map_cons, List.length_cons, Nat.cast_add, Nat.cast_one]
        linarith
      · simp only [List.sum_cons, List.map_cons, List.length_cons, Nat.cast_add, Nat.cast_one]
        linarith

/-- What spans a time is lit long enough to be seen. -/
theorem lit_of_forall₂ {gs : List Rat} {bs : List Beat} (all : List.Forall₂ Spans gs bs) :
    ∀ b ∈ bs, b.highlight.isFinite = true ∧ 1 / 100 ≤ b.highlight.toRat ∧ 1 ≤ b.centiseconds := by
  induction all with
  | nil => simp
  | cons spans _ ih =>
      exact List.forall_mem_cons.2 ⟨⟨spans.finite, spans.shortest, spans.marked⟩, ih⟩

/-- The caption of a steady line keeps in step with it. -/
theorem inStep_of_caption? {line : List Word} {c : Caption} (steady : IsSteady line)
    (made : caption? line = some c) : InStep line c := by
  obtain ⟨first, begins, last, ends, rfl⟩ := caption?_eq_some_iff.1 made
  have spans := forall₂_spans steady
  refine ⟨map_text_beats line, lit_of_forall₂ spans, ?_⟩
  intro j within
  change j ≤ (beats line).length at within
  rw [length_beats] at within
  have filled := fills_of_forall₂ (List.forall₂_take j spans)
  rwa [sum_take_gaps begins ends within] at filled

/-! ## Transcripts -/

/-- The lines of a transcript at moderate times are steady. -/
theorem isSteady_of_mem_groups {t : Transcript} {n : Nat} {line : List Word}
    (moderate : ∀ w ∈ t.words, |w.start.toRat| ≤ 1000000 ∧ |w.stop.toRat| ≤ 1000000)
    (dealt : line ∈ groups n t.words) : IsSteady line := by
  have among : ∀ w ∈ line, w ∈ t.words := fun w => mem_words_of_mem_groups dealt
  exact {
    starts := fun w member => ⟨Transcript.isFinite_start (among w member),
      (moderate w (among w member)).1⟩
    stops := fun w member => ⟨Transcript.isFinite_stop (among w member),
      (moderate w (among w member)).2⟩
    forth := fun w member => Transcript.start_le_stop (among w member)
    ordered := (pairwise_start_groups t n).1 line dealt }

/-- **Highlights keep in step with the speech.**  If no time is more than a million seconds away from
zero, the words are dealt to lines, and every line has a caption that keeps in step with it. -/
theorem highlights_in_step (t : Transcript) (n : Nat)
    (moderate : ∀ w ∈ t.words, |w.start.toRat| ≤ 1000000 ∧ |w.stop.toRat| ≤ 1000000) :
    (groups n t.words).flatten = t.words ∧
      List.Forall₂ InStep (groups n t.words) (captions t n) := by
  refine ⟨flatten_groups n t.words, ?_⟩
  have dealt := (List.forall₂_and_left _ _).2 ⟨fun line member => member, forall₂_captions t n⟩
  apply dealt.imp
  rintro line c ⟨member, made⟩
  exact inStep_of_caption? (isSteady_of_mem_groups moderate member) made

/-- A speech with a pause, with two words at once and with a word that takes no time. -/
def stammer : Transcript :=
  ⟨[⟨"a", 0, 0.3⟩, ⟨"b", 0.4, 0.9⟩, ⟨"c", 0.4, 0.4⟩, ⟨"d", 7, 7⟩], by decide +kernel⟩

/-- Where two words start at once, and where a word takes no time, the highlight is the shortest. -/
theorem highlights_in_step_stammer :
    (∀ w ∈ stammer.words, |w.start.toRat| ≤ 1000000 ∧ |w.stop.toRat| ≤ 1000000) ∧
      (captions stammer 3).map (fun c => c.beats.map Beat.centiseconds) = [[40, 1, 1], [1]] ∧
      List.Forall₂ InStep (groups 3 stammer.words) (captions stammer 3) := by
  have moderate : ∀ w ∈ stammer.words,
      |w.start.toRat| ≤ 1000000 ∧ |w.stop.toRat| ≤ 1000000 := by decide +kernel
  exact ⟨moderate, by decide +kernel, (highlights_in_step stammer 3 moderate).2⟩

end Slidecast.Subtitle
