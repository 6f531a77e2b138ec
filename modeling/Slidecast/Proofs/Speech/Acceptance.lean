import Slidecast.Proofs.Speech.Runs

/-!
# Which utterances are accepted

Reading an utterance fails in no more than two ways: its columns differ in length, or a word keeps a
time that is not finite.  Mending leaves nothing else to refuse, whatever the times are, because no
comparison with a mended start can go wrong again (`offence_mend`, `firstDisorder_mendAll`).

A word keeps a time that is not finite exactly if the time was reported so and could not be mended
(`IsTimed`): nothing lies before "not a number" or above infinity, and in front of the first word
there is no word to start with.  Only the first start and the last end of each run are looked at
(`transcript_succeeds_iff`).
-/

set_option autoImplicit false

namespace Slidecast.Number.Binary

variable {f : Format}

theorem not_lt_self (x : Binary f) : ¬ x < x := by
  change ¬ x.below x = true
  cases x <;> simp [below, compare?]

/-- A time that can be used if it may be raised to a bound: any but what is not a number and
infinity, which are below no bound. -/
def IsMendable (x : Binary f) : Prop := x ≠ .nan ∧ x ≠ .infinite false

/-- A number that is raised to a finite bound is finite exactly if it was mendable. -/
theorem isFinite_raised_iff {bound : Binary f} (finite : bound.isFinite = true) (x : Binary f) :
    (if x < bound then bound else x).isFinite = true ↔ x.IsMendable := by
  cases bound with
  | nan => cases finite
  | infinite negative => cases finite
  | finite a m e canonical =>
      have lower (y : Binary f) : y < .finite a m e canonical ↔
          (y.compare? (.finite a m e canonical) == some .lt) = true := Iff.rfl
      cases x with
      | nan => simp [lower, compare?, isFinite, IsMendable]
      | infinite negative => cases negative <;> simp [lower, compare?, isFinite, IsMendable]
      | finite b n k canonical' =>
          have either : (if Binary.finite b n k canonical' < .finite a m e canonical
              then Binary.finite a m e canonical
              else .finite b n k canonical').isFinite = true := by
            split <;> rfl
          simp [either, IsMendable]

end Slidecast.Number.Binary

namespace Slidecast.Speech

open Number

/-! ## What is left to refuse -/

section Mended

variable {previous : Option Double} {w : Word}

/-- A mended word does not stop before it starts, so at most its times can be refused. -/
theorem offence_mend (index : Nat) :
    (mend previous w).offence index =
      if (mend previous w).start.isFinite = true ∧ (mend previous w).stop.isFinite = true then none
      else some (.timeNotFinite index w.text) := by
  have forth : ¬ (mend previous w).stop < (mend previous w).start := by
    rw [stop_mend]
    split
    · exact Binary.not_lt_self _
    · assumption
  have text : (mend previous w).text = w.text := rfl
  by_cases finite : (mend previous w).start.isFinite = true ∧ (mend previous w).stop.isFinite = true
  · rw [if_pos finite]
    exact (offence_eq_none_iff index).2 ⟨finite.1, finite.2, forth⟩
  · rw [if_neg finite, Word.offence, if_pos, text]
    rw [not_and_or, Bool.not_eq_true, Bool.not_eq_true] at finite
    simpa using finite

/-- Mended starts never go back. -/
theorem firstDisorder_mendAll (index : Nat) (previous : Option Double) (ws : List Word) :
    firstDisorder index (mendAll previous ws) = none := by
  induction ws generalizing index previous with
  | nil => rfl
  | cons w ws ih =>
      cases ws with
      | nil => rfl
      | cons w' ws =>
          have forth :
              ¬ (mend (some (mend previous w).start) w').start < (mend previous w).start := by
            rw [start_mend_some]
            split
            · exact Binary.not_lt_self _
            · assumption
          rw [mendAll, mendAll, firstDisorder, if_neg forth]
          exact ih (index + 1) (some (mend previous w).start)

end Mended

/-- The times that are reported for the word with a number can be used: its start can be raised to
that of the word before, or if there is none, is finite, and its end can be raised to its start. -/
structure Word.IsTimed (index : Nat) (w : Word) : Prop where
  start : w.start.IsMendable
  first : index = 0 → w.start ≠ .infinite true
  stop : w.stop.IsMendable

/-- What is known when the word with a number is mended: it is the first one, or the start of the
word before it is finite. -/
def Follows (index : Nat) : Option Double → Prop
  | none => index = 0
  | some bound => index ≠ 0 ∧ bound.isFinite = true

section Refused

variable {index : Nat} {previous : Option Double} {w : Word} {ws : List Word}

theorem isFinite_start_mend_iff (follows : Follows index previous) :
    (mend previous w).start.isFinite = true ↔
      w.start.IsMendable ∧ (index = 0 → w.start ≠ .infinite true) := by
  cases previous with
  | none =>
      have first : index = 0 := follows
      have start : (mend none w).start = w.start := rfl
      rw [start]
      cases w.start with
      | nan => simp [Binary.isFinite, Binary.IsMendable]
      | infinite negative => cases negative <;> simp [Binary.isFinite, Binary.IsMendable, first]
      | finite a m e canonical => simp [Binary.isFinite, Binary.IsMendable]
  | some bound =>
      rw [start_mend_some, Binary.isFinite_raised_iff follows.2]
      exact (and_iff_left fun first => absurd first follows.1).symm

/-- **A word comes out with finite times** exactly if the reported ones can be used. -/
theorem isFinite_mend_iff (follows : Follows index previous) :
    (mend previous w).start.isFinite = true ∧ (mend previous w).stop.isFinite = true ↔
      w.IsTimed index := by
  constructor
  · rintro ⟨start, stop⟩
    obtain ⟨mendable, first⟩ := (isFinite_start_mend_iff follows).1 start
    rw [stop_mend, Binary.isFinite_raised_iff start] at stop
    exact ⟨mendable, first, stop⟩
  · rintro ⟨mendable, first, stop⟩
    have start := (isFinite_start_mend_iff follows).2 ⟨mendable, first⟩
    rw [stop_mend, Binary.isFinite_raised_iff start]
    exact ⟨start, stop⟩

/-- The first word whose times cannot be used, in words that are counted from `index`. -/
def IsFirstUntimed (index : Nat) (ws : List Word) (k : Nat) (w : Word) : Prop :=
  ws[k]? = some w ∧ ¬ w.IsTimed (index + k) ∧
    ∀ j < k, ∀ v, ws[j]? = some v → v.IsTimed (index + j)

/-- **The first offence of mended words** is a time of the first word whose times cannot be used. -/
theorem firstOffence_mendAll (follows : Follows index previous) :
    (firstOffence index (mendAll previous ws) = none ∧
        ∀ (k : Nat) (w : Word), ws[k]? = some w → w.IsTimed (index + k)) ∨
      ∃ k w, IsFirstUntimed index ws k w ∧
        firstOffence index (mendAll previous ws) = some (.timeNotFinite (index + k) w.text) := by
  induction ws generalizing index previous with
  | nil => exact .inl ⟨rfl, fun k w absent => by simp at absent⟩
  | cons v ws ih =>
      rw [mendAll, firstOffence, offence_mend]
      by_cases finite :
          (mend previous v).start.isFinite = true ∧ (mend previous v).stop.isFinite = true
      · have timed := (isFinite_mend_iff follows).1 finite
        have next : Follows (index + 1) (some (mend previous v).start) :=
          ⟨Nat.succ_ne_zero index, finite.1⟩
        have shift (k : Nat) : index + 1 + k = index + (k + 1) := by omega
        rw [if_pos finite]
        rcases ih next with ⟨sound, all⟩ | ⟨k, w, ⟨here, untimed, before⟩, offends⟩
        · refine .inl ⟨sound, fun k w isWord => ?_⟩
          cases k with
          | zero => exact Option.some.inj isWord ▸ timed
          | succ k => exact shift k ▸ all k w isWord
        · refine .inr ⟨k + 1, w, ⟨here, shift k ▸ untimed, fun j below u isWord => ?_⟩, ?_⟩
          · cases j with
            | zero => exact Option.some.inj isWord ▸ timed
            | succ j => exact shift j ▸ before j (Nat.lt_of_succ_lt_succ below) u isWord
          · rw [← shift k]
            exact offends
      · have untimed : ¬ v.IsTimed index :=
          fun timed => finite ((isFinite_mend_iff follows).2 timed)
        rw [if_neg finite]
        exact .inr ⟨0, v, ⟨rfl, untimed, fun j below => absurd below (Nat.not_lt_zero j)⟩, rfl⟩

end Refused

/-! ## Times that are not looked at -/

/-- The text with a number is the first of a run of texts that are not blank. -/
def BeginsRun (texts : List String) (i : Nat) : Prop :=
  (∃ text, texts[i]? = some text ∧ Text.isBlankText text = false) ∧
    ∀ j text, i = j + 1 → texts[j]? = some text → Text.isBlankText text = true

/-- The text with a number is the last of a run of texts that are not blank. -/
def EndsRun (texts : List String) (i : Nat) : Prop :=
  (∃ text, texts[i]? = some text ∧ Text.isBlankText text = false) ∧
    ∀ text, texts[i + 1]? = some text → Text.isBlankText text = true

section Unread

variable {previous : Option Double} {current : Option Word} {sounds : List Sound} {i : Nat}

/-- The start of a sound inside a word is not looked at. -/
theorem wordsFrom_modify_start (x : Double)
    (unread : ∀ s, sounds[i]? = some s → s.isPause = true ∨
      (i = 0 ∧ current.isSome = true) ∨
        ∃ j v, i = j + 1 ∧ sounds[j]? = some v ∧ v.isPause = false) :
    wordsFrom previous current (sounds.modify i fun s => { s with start := x }) =
      wordsFrom previous current sounds := by
  induction sounds generalizing previous current i with
  | nil => rw [List.modify_nil]
  | cons s sounds ih =>
      cases i with
      | zero =>
          rw [List.modify_zero_cons]
          cases isPause : s.isPause with
          | true =>
              rw [wordsFrom_pause _ _ isPause, wordsFrom_pause]
              exact isPause
          | false =>
              rcases unread s rfl with pause | ⟨_, speaking⟩ | ⟨j, v, absent, _⟩
              · rw [isPause] at pause
                cases pause
              · obtain ⟨w, rfl⟩ := Option.isSome_iff_exists.1 speaking
                rw [wordsFrom_sound _ _ isPause, wordsFrom_sound]
                · rfl
                · exact isPause
              · cases absent
      | succ i =>
          rw [List.modify_succ_cons]
          cases isPause : s.isPause with
          | true =>
              have unread' : ∀ v, sounds[i]? = some v → v.isPause = true ∨
                  (i = 0 ∧ (none : Option Word).isSome = true) ∨
                    ∃ j u, i = j + 1 ∧ sounds[j]? = some u ∧ u.isPause = false := by
                intro v there
                rcases unread v there with pause | ⟨absent, _⟩ | ⟨j, u, same, before, spoken⟩
                · exact .inl pause
                · cases absent
                · cases same
                  cases i with
                  | zero =>
                      cases before
                      rw [isPause] at spoken
                      cases spoken
                  | succ i => exact .inr (.inr ⟨i, u, rfl, before, spoken⟩)
              rw [wordsFrom_pause _ _ isPause, wordsFrom_pause _ _ isPause]
              cases current with
              | none => exact ih unread'
              | some w => exact congrArg _ (ih unread')
          | false =>
              rw [wordsFrom_sound _ _ isPause, wordsFrom_sound _ _ isPause]
              refine ih fun v there => ?_
              rcases unread v there with pause | ⟨absent, _⟩ | ⟨j, u, same, before, spoken⟩
              · exact .inl pause
              · cases absent
              · cases same
                cases i with
                | zero => exact .inr (.inl ⟨rfl, rfl⟩)
                | succ i => exact .inr (.inr ⟨i, u, rfl, before, spoken⟩)

/-- The end of a sound behind which the word goes on is not looked at. -/
theorem wordsFrom_modify_stop (x : Double)
    (unread : ∀ s, sounds[i]? = some s → s.isPause = true ∨
      ∃ v, sounds[i + 1]? = some v ∧ v.isPause = false) :
    wordsFrom previous current (sounds.modify i fun s => { s with stop := x }) =
      wordsFrom previous current sounds := by
  induction sounds generalizing previous current i with
  | nil => rw [List.modify_nil]
  | cons s sounds ih =>
      cases i with
      | zero =>
          rw [List.modify_zero_cons]
          cases isPause : s.isPause with
          | true =>
              rw [wordsFrom_pause _ _ isPause, wordsFrom_pause]
              exact isPause
          | false =>
              rcases unread s rfl with pause | ⟨v, next, spoken⟩
              · rw [isPause] at pause
                cases pause
              · cases sounds with
                | nil => cases next
                | cons u sounds =>
                    cases next
                    rw [wordsFrom_sound _ _ isPause, wordsFrom_sound _ _ spoken, wordsFrom_sound,
                      wordsFrom_sound _ _ spoken]
                    · cases current <;> rfl
                    · exact isPause
      | succ i =>
          rw [List.modify_succ_cons]
          have unread' : ∀ v, sounds[i]? = some v → v.isPause = true ∨
              ∃ u, sounds[i + 1]? = some u ∧ u.isPause = false := fun v there => unread v there
          cases isPause : s.isPause with
          | true =>
              rw [wordsFrom_pause _ _ isPause, wordsFrom_pause _ _ isPause]
              cases current with
              | none => exact ih unread'
              | some w => exact congrArg _ (ih unread')
          | false =>
              rw [wordsFrom_sound _ _ isPause, wordsFrom_sound _ _ isPause]
              exact ih unread'

end Unread

namespace Utterance

variable {u : Utterance} {i : Nat}

/-- All columns have the same length. -/
def IsEven (u : Utterance) : Prop :=
  u.characters.length = u.starts.length ∧ u.characters.length = u.ends.length

instance (u : Utterance) : Decidable u.IsEven := inferInstanceAs (Decidable (_ ∧ _))

theorem getElem?_characters (even : u.IsEven) :
    u.characters[i]? = u.sounds[i]?.map Sound.text := by
  rw [← (columns_of_sounds even).1, List.getElem?_map]

theorem sounds_set_starts (even : u.IsEven) (x : Double) :
    ({ u with starts := u.starts.set i x } : Utterance).sounds =
      u.sounds.modify i fun s => { s with start := x } := by
  refine List.ext_getElem? fun j => ?_
  unfold sounds
  grind [IsEven]

theorem sounds_set_ends (even : u.IsEven) (x : Double) :
    ({ u with ends := u.ends.set i x } : Utterance).sounds =
      u.sounds.modify i fun s => { s with stop := x } := by
  refine List.ext_getElem? fun j => ?_
  unfold sounds
  grind [IsEven]

theorem transcript_of_isEven (even : u.IsEven) :
    u.transcript = Transcript.ofWords (wordsFrom none none u.sounds) := if_pos even

theorem transcript_of_not_isEven (uneven : ¬ u.IsEven) :
    u.transcript = .error (.invalidInput
      (.unevenColumns u.characters.length u.starts.length u.ends.length)) := if_neg uneven

/-- **A start that begins no run does not matter.** -/
theorem transcript_set_starts (unread : ¬ BeginsRun u.characters i) (x : Double) :
    ({ u with starts := u.starts.set i x } : Utterance).transcript = u.transcript := by
  by_cases even : u.IsEven
  · have even' : ({ u with starts := u.starts.set i x } : Utterance).IsEven := by
      simpa [IsEven] using even
    rw [transcript_of_isEven even, transcript_of_isEven even', sounds_set_starts even,
      wordsFrom_modify_start]
    intro s there
    by_contra spoken
    rw [not_or, Bool.not_eq_true, not_or] at spoken
    have text : u.characters[i]? = some s.text := by rw [getElem?_characters even, there]; rfl
    refine unread ⟨⟨s.text, text, spoken.1⟩, fun j text' same before => ?_⟩
    rw [getElem?_characters even] at before
    obtain ⟨v, there', rfl⟩ := Option.map_eq_some_iff.1 before
    by_contra loud
    exact spoken.2.2 ⟨j, v, same, there', eq_false_of_ne_true loud⟩
  · have uneven' : ¬ ({ u with starts := u.starts.set i x } : Utterance).IsEven := by
      simpa [IsEven] using even
    rw [transcript_of_not_isEven even, transcript_of_not_isEven uneven', List.length_set]

/-- **An end that ends no run does not matter.** -/
theorem transcript_set_ends (unread : ¬ EndsRun u.characters i) (x : Double) :
    ({ u with ends := u.ends.set i x } : Utterance).transcript = u.transcript := by
  by_cases even : u.IsEven
  · have even' : ({ u with ends := u.ends.set i x } : Utterance).IsEven := by
      simpa [IsEven] using even
    rw [transcript_of_isEven even, transcript_of_isEven even', sounds_set_ends even,
      wordsFrom_modify_stop]
    intro s there
    by_contra spoken
    rw [not_or, Bool.not_eq_true] at spoken
    have text : u.characters[i]? = some s.text := by rw [getElem?_characters even, there]; rfl
    refine unread ⟨⟨s.text, text, spoken.1⟩, fun text' behind => ?_⟩
    rw [getElem?_characters even] at behind
    obtain ⟨v, there', rfl⟩ := Option.map_eq_some_iff.1 behind
    by_contra loud
    exact spoken.2 ⟨v, there', eq_false_of_ne_true loud⟩
  · have uneven' : ¬ ({ u with ends := u.ends.set i x } : Utterance).IsEven := by
      simpa [IsEven] using even
    rw [transcript_of_not_isEven even, transcript_of_not_isEven uneven', List.length_set]

/-- The words of an utterance as they are reported, one for each run. -/
def reportedWords (u : Utterance) : List Word := (runs u.sounds).map reported

/-- **What is refused of an utterance** with even columns is the first word whose times cannot be
used, and nothing if there is none. -/
theorem offenceOf_wordsFrom (u : Utterance) :
    (offenceOf (wordsFrom none none u.sounds) = none ∧
        ∀ (k : Nat) (w : Word), u.reportedWords[k]? = some w → w.IsTimed k) ∨
      ∃ k w, IsFirstUntimed 0 u.reportedWords k w ∧
        offenceOf (wordsFrom none none u.sounds) = some (.timeNotFinite k w.text) := by
  have first : Follows 0 none := rfl
  have mended : wordsFrom none none u.sounds = mendAll none u.reportedWords :=
    wordsFrom_eq_mendAll u.sounds
  rcases @firstOffence_mendAll 0 none u.reportedWords first with
    ⟨timed, all⟩ | ⟨k, w, isFirst, offends⟩
  · refine .inl ⟨?_, fun k w isWord => Nat.zero_add k ▸ all k w isWord⟩
    rw [mended, offenceOf, timed, firstDisorder_mendAll]
    rfl
  · refine .inr ⟨k, w, isFirst, ?_⟩
    rw [mended, offenceOf, offends, Nat.zero_add]

end Utterance

/-! ## What is mended -/

/-- A word behind others is mended against the one before it. -/
theorem exists_mend_of_getElem? {previous : Option Double} {ws : List Word} {k : Nat} {v w : Word}
    (mended : (mendAll previous ws)[k]? = some w) (isReported : ws[k]? = some v) :
    ∃ before, w = mend before v ∧ ((k = 0 ∧ before = previous) ∨
      ∃ j u, k = j + 1 ∧ (mendAll previous ws)[j]? = some u ∧ before = some u.start) := by
  induction ws generalizing previous k with
  | nil => cases isReported
  | cons x ws ih =>
      cases k with
      | zero =>
          cases isReported
          cases mended
          exact ⟨previous, rfl, .inl ⟨rfl, rfl⟩⟩
      | succ k =>
          obtain ⟨before, rfl, ⟨rfl, rfl⟩ | ⟨j, u, rfl, there, rfl⟩⟩ := ih mended isReported
          · exact ⟨_, rfl, .inr ⟨0, mend previous x, rfl, rfl, rfl⟩⟩
          · exact ⟨_, rfl, .inr ⟨j + 1, u, rfl, there, rfl⟩⟩

/-- A word that was reported to start below all numbers starts with the word before it. -/
theorem start_of_infinite {u : Utterance} {t : Transcript} (read : u.transcript = .ok t) {k : Nat}
    {v w : Word} (isReported : u.reportedWords[k]? = some v) (isWord : t.words[k]? = some w)
    (below : v.start = .infinite true) :
    ∃ j before, k = j + 1 ∧ t.words[j]? = some before ∧ w.start = before.start := by
  have finite := Transcript.isFinite_start (List.mem_of_getElem? isWord)
  have words : t.words = mendAll none u.reportedWords :=
    (Utterance.words_of_transcript_eq_ok read).2
  rw [words] at isWord ⊢
  obtain ⟨_, rfl, ⟨rfl, rfl⟩ | ⟨j, before, rfl, there, rfl⟩⟩ :=
    exists_mend_of_getElem? isWord isReported
  · have start : (mend none v).start = v.start := rfl
    rw [start, below] at finite
    cases finite
  · refine ⟨j, before, rfl, there, ?_⟩
    rw [start_mend_some] at finite ⊢
    split at finite
    · next early => exact if_pos early
    · rw [below] at finite
      cases finite

/-- A word that was reported to stop below all numbers stops where it starts. -/
theorem stop_of_infinite {u : Utterance} {t : Transcript} (read : u.transcript = .ok t) {k : Nat}
    {v w : Word} (isReported : u.reportedWords[k]? = some v) (isWord : t.words[k]? = some w)
    (below : v.stop = .infinite true) : w.stop = w.start := by
  have finite := Transcript.isFinite_stop (List.mem_of_getElem? isWord)
  have words : t.words = mendAll none u.reportedWords :=
    (Utterance.words_of_transcript_eq_ok read).2
  rw [words] at isWord
  obtain ⟨_, rfl, _⟩ := exists_mend_of_getElem? isWord isReported
  rw [stop_mend] at finite ⊢
  split at finite
  · next early => exact if_pos early
  · rw [below] at finite
    cases finite

/-! ## Which utterances are accepted -/

/-- Nothing is ever refused but columns that differ and a first word whose times cannot be used. -/
theorem Utterance.of_transcript_eq_error {u : Utterance} {failure : Failure}
    (failed : u.transcript = .error failure) :
    (¬ u.IsEven ∧ failure = .invalidInput
        (.unevenColumns u.characters.length u.starts.length u.ends.length)) ∨
      (u.IsEven ∧ ∃ k w, IsFirstUntimed 0 u.reportedWords k w ∧
        failure = .invalidInput (.timeNotFinite k w.text)) := by
  by_cases even : u.IsEven
  · rw [transcript_of_isEven even] at failed
    rcases u.offenceOf_wordsFrom with ⟨sound, _⟩ | ⟨k, w, isFirst, offends⟩
    · rw [Transcript.ofWords_eq_ok sound] at failed
      cases failed
    · rw [Transcript.ofWords_eq_error offends] at failed
      cases failed
      exact .inr ⟨even, k, w, isFirst, rfl⟩
  · rw [transcript_of_not_isEven even] at failed
    cases failed
    exact .inl ⟨even, rfl⟩

/-- **An utterance is accepted exactly when its times can be used.**  It gives a transcript if and
only if its columns have the same length and, for every run, the first start and the last end are
neither "not a number" nor infinity, and the start of the first run is not below all numbers.  If
not, the columns are told to differ, or the first word whose times cannot be used is told to have a
time that is not finite; nothing else is ever refused.  Starts and ends below all numbers are
mended, and all other times of the utterance may be any. -/
theorem transcript_succeeds_iff (u : Utterance) :
    Segmented u.sounds (runs u.sounds) ∧
    ((∃ t, u.transcript = .ok t) ↔
      u.IsEven ∧ ∀ (k : Nat) (w : Word), u.reportedWords[k]? = some w → w.IsTimed k) ∧
    (∀ failure, u.transcript = .error failure →
      (¬ u.IsEven ∧ failure = .invalidInput
        (.unevenColumns u.characters.length u.starts.length u.ends.length)) ∨
      (u.IsEven ∧ ∃ k w, IsFirstUntimed 0 u.reportedWords k w ∧
        failure = .invalidInput (.timeNotFinite k w.text))) ∧
    (∀ t, u.transcript = .ok t → ∀ (k : Nat) (v w : Word),
      u.reportedWords[k]? = some v → t.words[k]? = some w →
        (v.start = .infinite true →
          ∃ j before, k = j + 1 ∧ t.words[j]? = some before ∧ w.start = before.start) ∧
        (v.stop = .infinite true → w.stop = w.start)) ∧
    (∀ i x, ¬ BeginsRun u.characters i →
      ({ u with starts := u.starts.set i x } : Utterance).transcript = u.transcript) ∧
    ∀ i x, ¬ EndsRun u.characters i →
      ({ u with ends := u.ends.set i x } : Utterance).transcript = u.transcript := by
  refine ⟨segmented_runs u.sounds, ?_, ?_, ?_, ?_, ?_⟩
  · by_cases even : u.IsEven
    · rw [Utterance.transcript_of_isEven even]
      rcases u.offenceOf_wordsFrom with ⟨sound, all⟩ | ⟨k, w, ⟨here, untimed, _⟩, offends⟩
      · exact ⟨fun _ => ⟨even, all⟩, fun _ => ⟨_, Transcript.ofWords_eq_ok sound⟩⟩
      · refine ⟨fun ⟨t, accepted⟩ => ?_, fun ⟨_, all⟩ => ?_⟩
        · rw [Transcript.ofWords_eq_error offends] at accepted
          cases accepted
        · exact absurd (all k w here) (Nat.zero_add k ▸ untimed)
    · rw [Utterance.transcript_of_not_isEven even]
      exact ⟨nofun, fun both => absurd both.1 even⟩
  · exact fun failure => Utterance.of_transcript_eq_error
  · exact fun t read k v w isReported isWord =>
      ⟨start_of_infinite read isReported isWord, stop_of_infinite read isReported isWord⟩
  · exact fun i x unread => Utterance.transcript_set_starts unread x
  · exact fun i x unread => Utterance.transcript_set_ends unread x

/-- The second word starts and stops below all numbers, and the blank has no times at all. -/
example :
    (Utterance.transcript
      ⟨["a", " ", "b"], [0, .nan, .infinite true], [1, .nan, .infinite true]⟩).toOption.map
        Transcript.words = some [⟨"a", 0, 1⟩, ⟨"b", 0, 0⟩] := by decide +kernel

end Slidecast.Speech
