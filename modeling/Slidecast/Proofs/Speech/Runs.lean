import Slidecast.Speech.Utterance
import Slidecast.Proofs.Speech.Soundness

/-!
# The words of an utterance are its runs

A run of an utterance is a longest row of sounds without a pause among them (`runs`,
`segmented_runs`).  Reading takes one word from each run, in order: its text is that of the run,
and its times are those of the run, mended against the word before (`wordsFrom_eq_mendAll`).

When a transcript comes out, mending has a closed form: a word starts at the latest start of its
own run and of the runs before it, and stops at the later of this start and the end of its run
(`transcript_runs`).
-/

set_option autoImplicit false

namespace Slidecast.Speech

open Number

/-! ## Runs -/

/-- The rows of sounds between the pauses, without the empty ones. -/
def runs (sounds : List Sound) : List (List Sound) :=
  (sounds.splitOnP Sound.isPause).filter fun run => !run.isEmpty

/-- The longest rows of sounds without a pause, in order: pauses, then a run up to the next pause
or to the end, and so on. -/
inductive Segmented : List Sound → List (List Sound) → Prop where
  | silence {pauses : List Sound} (all : ∀ s ∈ pauses, s.isPause = true) : Segmented pauses []
  | run {pauses run rest : List Sound} {others : List (List Sound)}
      (all : ∀ s ∈ pauses, s.isPause = true) (nonempty : run ≠ [])
      (spoken : ∀ s ∈ run, s.isPause = false)
      (ends : ∀ s ∈ rest.head?, s.isPause = true) (more : Segmented rest others) :
      Segmented (pauses ++ run ++ rest) (run :: others)

theorem Segmented.pause {sounds : List Sound} {found : List (List Sound)} {s : Sound}
    (isPause : s.isPause = true) (segmented : Segmented sounds found) :
    Segmented (s :: sounds) found := by
  cases segmented with
  | silence all => exact .silence (List.forall_mem_cons.2 ⟨isPause, all⟩)
  | run all nonempty spoken ends more =>
      exact .run (List.forall_mem_cons.2 ⟨isPause, all⟩) nonempty spoken ends more

/-- The runs of a row of sounds behind sounds that are being spoken, last one first. -/
noncomputable def runsBehind (before sounds : List Sound) : List (List Sound) :=
  (sounds.splitOnPPrepend Sound.isPause before).filter fun run => !run.isEmpty

theorem runs_eq_runsBehind (sounds : List Sound) : runs sounds = runsBehind [] sounds := rfl

theorem segmented_runsBehind (before sounds : List Sound)
    (spoken : ∀ s ∈ before, s.isPause = false) :
    Segmented (before.reverse ++ sounds) (runsBehind before sounds) := by
  induction sounds generalizing before with
  | nil =>
      cases before with
      | nil => exact .silence (by simp)
      | cons s before =>
          have inRun : ∀ v ∈ (s :: before).reverse, v.isPause = false := fun v member =>
            spoken v (List.mem_reverse.1 member)
          have single : Segmented ([] ++ (s :: before).reverse ++ []) [(s :: before).reverse] :=
            .run (by simp) (by simp) inRun (by simp) (.silence (by simp))
          simpa [runsBehind] using single
  | cons s sounds ih =>
      cases isPause : s.isPause with
      | true =>
          have behind := (ih [] (by simp)).pause isPause
          rw [List.reverse_nil, List.nil_append] at behind
          rw [runsBehind, List.splitOnPPrepend_cons_pos isPause]
          cases before with
          | nil => simpa [runsBehind] using behind
          | cons v before =>
              have inRun : ∀ u ∈ (v :: before).reverse, u.isPause = false := fun u member =>
                spoken u (List.mem_reverse.1 member)
              have longer : Segmented ([] ++ (v :: before).reverse ++ s :: sounds)
                  ((v :: before).reverse :: runsBehind [] sounds) :=
                .run (by simp) (by simp) inRun (by simpa using isPause) behind
              simpa [runsBehind] using longer
      | false =>
          have behind := ih (s :: before) (List.forall_mem_cons.2 ⟨isPause, spoken⟩)
          rw [runsBehind, List.splitOnPPrepend_cons_neg isPause]
          simpa [runsBehind] using behind

/-- **The runs are the longest rows without a pause.** -/
theorem segmented_runs (sounds : List Sound) : Segmented sounds (runs sounds) := by
  simpa [runs_eq_runsBehind] using segmented_runsBehind [] sounds (by simp)

/-- No sound but the pauses is lost, repeated or moved. -/
theorem Segmented.flatten {sounds : List Sound} {found : List (List Sound)}
    (segmented : Segmented sounds found) :
    found.flatten = sounds.filter fun s => !s.isPause := by
  induction segmented with
  | silence all =>
      symm
      simpa using all
  | @run pauses run rest others all _ spoken _ _ ih =>
      have dropped : pauses.filter (fun s => !s.isPause) = [] :=
        List.filter_eq_nil_iff.2 fun s member => by simp [all s member]
      have every : run.filter (fun s => !s.isPause) = run :=
        List.filter_eq_self.2 fun s member => by simp [spoken s member]
      rw [List.flatten_cons, ih, List.filter_append, List.filter_append, dropped, every,
        List.nil_append]

theorem Segmented.forall_run {sounds : List Sound} {found : List (List Sound)}
    (segmented : Segmented sounds found) :
    ∀ run ∈ found, run ≠ [] ∧ ∀ s ∈ run, s.isPause = false := by
  induction segmented with
  | silence => simp
  | run _ nonempty spoken _ _ ih => exact List.forall_mem_cons.2 ⟨⟨nonempty, spoken⟩, ih⟩

/-! ## One word from each run -/

/-- The word of a run, with its times as they were reported. -/
def spoken? (run : List Sound) : Option Word :=
  run.foldl (fun current s => some (extend current s)) none

/-- Words with their times mended, when `previous` is the start of the word before them. -/
def mendAll (previous : Option Double) : List Word → List Word
  | [] => []
  | w :: ws => mend previous w :: mendAll (some (mend previous w).start) ws

theorem spoken?_append_singleton (run : List Sound) (s : Sound) :
    spoken? (run ++ [s]) = some (extend (spoken? run) s) := by
  simp [spoken?]

theorem foldl_extend (run : List Sound) (w : Word) :
    run.foldl (fun current s => some (extend current s)) (some w) =
      some ⟨w.text ++ String.join (run.map Sound.text), w.start,
        (run.getLast?.map Sound.stop).getD w.stop⟩ := by
  induction run generalizing w with
  | nil => simp
  | cons s run ih =>
      rw [List.foldl_cons, ih]
      cases last : run.getLast? with
      | none =>
          have empty : run = [] := List.getLast?_eq_none_iff.1 last
          simp [extend, empty]
      | some v => simp [extend, List.getLast?_cons, last, String.append_assoc]

/-- The text of a run, with the time of its first sound and that of its last one. -/
def reported (run : List Sound) : Word :=
  ⟨String.join (run.map Sound.text), (run.head?.map Sound.start).getD 0,
    (run.getLast?.map Sound.stop).getD 0⟩

/-- The word of a run has the text of the run, starts with its first sound and stops with its
last one. -/
theorem spoken?_eq_reported {run : List Sound} (nonempty : run ≠ []) :
    spoken? run = some (reported run) := by
  cases run with
  | nil => exact absurd rfl nonempty
  | cons s run =>
      have folded : spoken? (s :: run) = some ⟨s.text ++ String.join (run.map Sound.text),
          s.start, (run.getLast?.map Sound.stop).getD s.stop⟩ := foldl_extend run _
      rw [folded, reported, List.getLast?_cons]
      cases run.getLast? <;> simp

theorem filterMap_spoken?_filter (rows : List (List Sound)) :
    (rows.filter fun run => !run.isEmpty).filterMap spoken? = rows.filterMap spoken? := by
  induction rows with
  | nil => rfl
  | cons row rows ih =>
      cases row with
      | nil => exact ih
      | cons s row =>
          rw [List.filter_cons_of_pos (by simp), List.filterMap_cons, List.filterMap_cons, ih]

theorem filterMap_runsBehind_cons_pause (before sounds : List Sound) {s : Sound}
    (isPause : s.isPause = true) :
    (runsBehind before (s :: sounds)).filterMap spoken? =
      (spoken? before.reverse).toList ++ (runsBehind [] sounds).filterMap spoken? := by
  rw [runsBehind, runsBehind, filterMap_spoken?_filter, filterMap_spoken?_filter,
    List.splitOnPPrepend_cons_pos isPause, List.filterMap_cons]
  cases spoken? before.reverse <;> rfl

theorem wordsFrom_nil (previous : Option Double) (current : Option Word) :
    wordsFrom previous current [] = mendAll previous current.toList := by
  cases current <;> rfl

theorem wordsFrom_pause (previous : Option Double) (current : Option Word) {s : Sound}
    (isPause : s.isPause = true) (sounds : List Sound) :
    wordsFrom previous current (s :: sounds) =
      match current with
      | some w => mend previous w :: wordsFrom (some (mend previous w).start) none sounds
      | none => wordsFrom previous none sounds := by
  cases current with
  | none => simp only [wordsFrom, isPause, if_true]
  | some w => simp only [wordsFrom, isPause, if_true]

theorem wordsFrom_sound (previous : Option Double) (current : Option Word) {s : Sound}
    (isPause : s.isPause = false) (sounds : List Sound) :
    wordsFrom previous current (s :: sounds) =
      wordsFrom previous (some (extend current s)) sounds := by
  cases current with
  | none => simp only [wordsFrom, isPause, Bool.false_eq_true, if_false]
  | some w => simp only [wordsFrom, isPause, Bool.false_eq_true, if_false]

/-- Reading a row of sounds takes one word from each run, while the sounds `before` are being
spoken. -/
theorem wordsFrom_runsBehind (previous : Option Double) (before sounds : List Sound) :
    wordsFrom previous (spoken? before.reverse) sounds =
      mendAll previous ((runsBehind before sounds).filterMap spoken?) := by
  induction sounds generalizing previous before with
  | nil =>
      rw [runsBehind, filterMap_spoken?_filter, List.splitOnPPrepend_nil, wordsFrom_nil,
        List.filterMap_cons, List.filterMap_nil]
      cases spoken? before.reverse <;> rfl
  | cons s sounds ih =>
      cases isPause : s.isPause with
      | true =>
          rw [filterMap_runsBehind_cons_pause before sounds isPause,
            wordsFrom_pause _ _ isPause]
          have silent (start : Option Double) := ih start []
          rw [List.reverse_nil] at silent
          cases spoken? before.reverse with
          | none => exact silent previous
          | some w => exact congrArg _ (silent (some (mend previous w).start))
      | false =>
          have behind := ih previous (s :: before)
          rw [List.reverse_cons, spoken?_append_singleton] at behind
          rw [wordsFrom_sound _ _ isPause, runsBehind, List.splitOnPPrepend_cons_neg isPause]
          exact behind

/-- **The words of an utterance** are those of its runs, mended in order. -/
theorem wordsFrom_eq_mendAll (sounds : List Sound) :
    wordsFrom none none sounds = mendAll none ((runs sounds).map reported) := by
  have eachSpoken : (runs sounds).filterMap spoken? = (runs sounds).map reported := by
    rw [← List.filterMap_eq_map]
    refine List.filterMap_congr fun run member => ?_
    exact spoken?_eq_reported ((segmented_runs sounds).forall_run run member).1
  rw [← eachSpoken]
  exact wordsFrom_runsBehind none [] sounds

/-! ## The closed form of mending -/

@[simp] theorem length_mendAll (previous : Option Double) (ws : List Word) :
    (mendAll previous ws).length = ws.length := by
  induction ws generalizing previous with
  | nil => rfl
  | cons w ws ih => simp [mendAll, ih]

/-- What is known of the word in front: its start is finite and the latest of the starts so far. -/
def Bounds (previous : Option Double) (earlier : List Double) : Prop :=
  match previous with
  | none => earlier = []
  | some bound => bound.isFinite = true ∧ bound.IsLargest earlier

theorem start_mend_some (bound : Double) (w : Word) :
    (mend (some bound) w).start = if w.start < bound then bound else w.start := rfl

theorem stop_mend (previous : Option Double) (w : Word) :
    (mend previous w).stop =
      if w.stop < (mend previous w).start then (mend previous w).start else w.stop := rfl

/-- A mended word starts at the latest of the starts so far, if its start is finite. -/
theorem isLargest_start_mend {previous : Option Double} {earlier : List Double}
    (bounds : Bounds previous earlier) {w : Word}
    (finite : (mend previous w).start.isFinite = true) :
    (mend previous w).start.IsLargest (earlier ++ [w.start]) := by
  cases previous with
  | none =>
      have first : earlier = [] := bounds
      subst first
      refine ⟨by simp [mend], fun y member => ?_⟩
      rw [List.nil_append, List.mem_singleton] at member
      rw [member]
      exact Binary.le_refl_of_isFinite finite
  | some bound =>
      obtain ⟨boundFinite, inEarlier, latest⟩ := bounds
      rw [start_mend_some] at finite ⊢
      split at finite
      next early =>
        rw [if_pos early]
        refine ⟨List.mem_append_left _ inEarlier, fun y member => ?_⟩
        rw [List.mem_append, List.mem_singleton] at member
        rcases member with old | rfl
        · exact latest y old
        · exact Binary.le_of_lt early
      next inOrder =>
        have after : bound ≤ w.start := (Binary.not_lt_iff_le finite boundFinite).1 inOrder
        rw [if_neg inOrder]
        refine ⟨by simp, fun y member => ?_⟩
        rw [List.mem_append, List.mem_singleton] at member
        rcases member with old | rfl
        · exact Binary.le_trans (latest y old) after
        · exact Binary.le_refl_of_isFinite finite

/-- A mended word stops at the later of its start and the reported stop, if both that come out
are finite. -/
theorem isLargest_stop_mend {previous : Option Double} {w : Word}
    (starts : (mend previous w).start.isFinite = true)
    (stops : (mend previous w).stop.isFinite = true) :
    (mend previous w).stop.IsLargest [(mend previous w).start, w.stop] := by
  rw [stop_mend] at stops ⊢
  split at stops
  next early =>
    rw [if_pos early]
    refine ⟨by simp, ?_⟩
    rw [List.forall_mem_cons, List.forall_mem_singleton]
    exact ⟨Binary.le_refl_of_isFinite starts, Binary.le_of_lt early⟩
  next inOrder =>
    rw [if_neg inOrder]
    refine ⟨by simp, ?_⟩
    rw [List.forall_mem_cons, List.forall_mem_singleton]
    exact ⟨(Binary.not_lt_iff_le stops starts).1 inOrder, Binary.le_refl_of_isFinite stops⟩

/-- **The closed form of mending**, for every word of a row that comes out with finite times. -/
theorem getElem?_mendAll {previous : Option Double} {earlier : List Double}
    (bounds : Bounds previous earlier) {ws : List Word}
    (finite : ∀ w ∈ mendAll previous ws, w.start.isFinite = true ∧ w.stop.isFinite = true)
    {k : Nat} {v w : Word} (mended : (mendAll previous ws)[k]? = some w)
    (isReported : ws[k]? = some v) :
    w.text = v.text ∧ w.start.IsLargest (earlier ++ (ws.take (k + 1)).map Word.start) ∧
      w.stop.IsLargest [w.start, v.stop] := by
  induction ws generalizing previous earlier k with
  | nil => simp at isReported
  | cons x ws ih =>
      rw [mendAll, List.forall_mem_cons] at finite
      have starts := isLargest_start_mend bounds finite.1.1
      cases k with
      | zero =>
          obtain rfl : x = v := by simpa using isReported
          obtain rfl : mend previous x = w := by simpa [mendAll] using mended
          exact ⟨rfl, by simpa using starts, isLargest_stop_mend finite.1.1 finite.1.2⟩
      | succ k =>
          have known : Bounds (some (mend previous x).start) (earlier ++ [x.start]) :=
            ⟨finite.1.1, starts⟩
          have behind := ih known finite.2 (by simpa [mendAll] using mended)
            (by simpa using isReported)
          simpa [List.append_assoc] using behind

/-! ## Transcripts of utterances -/

namespace Utterance

/-- The columns of an utterance that gives a transcript have the same length, and the transcript
has the words of the runs. -/
theorem words_of_transcript_eq_ok {u : Utterance} {t : Transcript} (read : u.transcript = .ok t) :
    (u.characters.length = u.starts.length ∧ u.characters.length = u.ends.length) ∧
      t.words = mendAll none ((runs u.sounds).map reported) := by
  unfold transcript at read
  split at read
  next even => exact ⟨even, (Transcript.words_of_ofWords_eq_ok read).trans (wordsFrom_eq_mendAll _)⟩
  next => cases read

/-- Sounds have the three columns of their utterance. -/
theorem columns_of_sounds {u : Utterance}
    (even : u.characters.length = u.starts.length ∧ u.characters.length = u.ends.length) :
    u.sounds.map Sound.text = u.characters ∧ u.sounds.map Sound.start = u.starts ∧
      u.sounds.map Sound.stop = u.ends := by
  obtain ⟨starts, ends⟩ := even
  have zipped : u.sounds = (u.characters.zip (u.starts.zip u.ends)).map fun entry =>
      ⟨entry.1, entry.2.1, entry.2.2⟩ := List.map_uncurry_zip_eq_zipWith.symm
  have times : (u.characters.zip (u.starts.zip u.ends)).map Prod.snd = u.starts.zip u.ends :=
    List.map_snd_zip (by simp; omega)
  rw [zipped, List.map_map, List.map_map, List.map_map]
  refine ⟨List.map_fst_zip (by simp; omega), ?_, ?_⟩
  · have firsts := congrArg (List.map Prod.fst) times
    rwa [List.map_map, List.map_fst_zip (by omega)] at firsts
  · have seconds := congrArg (List.map Prod.snd) times
    rwa [List.map_map, List.map_snd_zip (by omega)] at seconds

end Utterance

/-- A sound that is not a pause has a text. -/
theorem text_ne_empty_of_not_isPause {s : Sound} (spoken : s.isPause = false) : s.text ≠ "" := by
  intro empty
  rw [Sound.isPause, empty] at spoken
  exact absurd spoken (by decide)

/-- The text of a run is not empty. -/
theorem text_reported_ne_empty {run : List Sound} (nonempty : run ≠ [])
    (spoken : ∀ s ∈ run, s.isPause = false) : (reported run).text ≠ "" := by
  cases run with
  | nil => exact absurd rfl nonempty
  | cons s run =>
      have text := text_ne_empty_of_not_isPause (spoken s (by simp))
      simp [reported, text]

/-- The starts of the first sounds of runs. -/
def firstStarts (rows : List (List Sound)) : List Double :=
  rows.filterMap fun run => run.head?.map Sound.start

theorem map_start_reported {rows : List (List Sound)} (nonempty : ∀ run ∈ rows, run ≠ []) :
    (rows.map reported).map Word.start = firstStarts rows := by
  induction rows with
  | nil => rfl
  | cons run rows ih =>
      rw [List.forall_mem_cons] at nonempty
      rw [firstStarts, List.map_cons, List.map_cons, ih nonempty.2, List.filterMap_cons]
      cases run with
      | nil => exact absurd rfl nonempty.1
      | cons s run => rfl

/-- **One word from each run.**  A transcript of an utterance has one word for each longest row of
sounds without a pause, in order.  The word has the text of the row, starts at the latest of the
starts of this row and of those before it, and stops at the later of this start and the end of
the row.  No sound but the pauses is lost, repeated or moved, no word is empty, and pauses do
nothing but separate: utterances with the same runs have the same transcript. -/
theorem transcript_runs (u : Utterance) (t : Transcript) (read : u.transcript = .ok t) :
    (u.sounds.map Sound.text = u.characters ∧ u.sounds.map Sound.start = u.starts ∧
      u.sounds.map Sound.stop = u.ends) ∧
    Segmented u.sounds (runs u.sounds) ∧
    (runs u.sounds).flatten = u.sounds.filter (fun s => !s.isPause) ∧
    t.words.length = (runs u.sounds).length ∧
    (∀ (k : Nat) (w : Word) (run : List Sound),
      t.words[k]? = some w → (runs u.sounds)[k]? = some run →
        w.text = String.join (run.map Sound.text) ∧ w.text ≠ "" ∧
        w.start.IsLargest (firstStarts ((runs u.sounds).take (k + 1))) ∧
        ∃ last, run.getLast? = some last ∧ w.stop.IsLargest [w.start, last.stop]) ∧
    ∀ (v : Utterance) (s : Transcript), v.transcript = .ok s → runs v.sounds = runs u.sounds →
      s = t := by
  obtain ⟨even, words⟩ := Utterance.words_of_transcript_eq_ok read
  have segmented := segmented_runs u.sounds
  have nonempty : ∀ run ∈ runs u.sounds, run ≠ [] := fun run member =>
    (segmented.forall_run run member).1
  refine ⟨Utterance.columns_of_sounds even, segmented, segmented.flatten, by simp [words],
    fun k w run word isRun => ?_, fun v s readToo same => ?_⟩
  · have finite : ∀ w ∈ t.words, w.start.isFinite = true ∧ w.stop.isFinite = true :=
      fun w member => ⟨Transcript.isFinite_start member, Transcript.isFinite_stop member⟩
    rw [words] at word finite
    have isReported : ((runs u.sounds).map reported)[k]? = some (reported run) := by simp [isRun]
    have silent : Bounds none [] := rfl
    obtain ⟨text, start, stop⟩ := getElem?_mendAll silent finite word isReported
    have inRuns := List.mem_of_getElem? isRun
    refine ⟨text, ?_, ?_, run.getLast (nonempty run inRuns), List.getLast?_eq_some_getLast _, ?_⟩
    · exact text ▸ text_reported_ne_empty (nonempty run inRuns) (segmented.forall_run run inRuns).2
    · rw [List.nil_append, ← List.map_take, map_start_reported] at start
      · exact start
      · exact fun run member => nonempty run (List.mem_of_mem_take member)
    · simpa [reported, List.getLast?_eq_some_getLast (nonempty run inRuns)] using stop
  · refine Transcript.eq_of_words_eq ?_
    rw [(Utterance.words_of_transcript_eq_ok readToo).2, words, same]

/-- An utterance with a blank in front and another one inside, whose second word is reported to
stop before it starts, and whose third is reported to start before the others. -/
def noisyUtterance : Utterance :=
  ⟨[" ", "a", "b", "", "\t", "c", " ", "d"], [0, 1, 1, 1, 1, 3, 3, 0], [0, 1, 2, 2, 2, 2, 3, 1]⟩

/-- The words of the noisy utterance. -/
def mendedWords : List Word := [⟨"ab", 1, 2⟩, ⟨"c", 3, 3⟩, ⟨"d", 3, 3⟩]

theorem transcript_noisyUtterance :
    ∃ t, noisyUtterance.transcript = .ok t ∧ t.words = mendedWords ∧
      t.words.length = (runs noisyUtterance.sounds).length ∧
      (runs noisyUtterance.sounds).flatten =
        noisyUtterance.sounds.filter fun s => !s.isPause := by
  have sound : offenceOf mendedWords = none := by decide +kernel
  have words : wordsFrom none none noisyUtterance.sounds = mendedWords := by decide +kernel
  have read : noisyUtterance.transcript = .ok ⟨mendedWords, sound⟩ := by
    rw [Utterance.transcript, if_pos (by decide), words]
    exact Transcript.ofWords_eq_ok sound
  obtain ⟨_, _, kept, count, _⟩ := transcript_runs noisyUtterance _ read
  exact ⟨_, read, rfl, count, kept⟩

end Slidecast.Speech
