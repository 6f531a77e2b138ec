import Slidecast.Proofs.Speech.Soundness
import Mathlib.Order.Bounds.Basic

/-!
# What a transcript is refused for

A row of words is accepted as it is or refused for one offence, and which one is fixed by the words
alone: it is that of the least index at which a word is wrong by itself, and if all words are right,
the least index at which a word starts before its predecessor (`ofWords_first_offence`).  A word
with a time that is not finite is reported as such, whatever the order of its times.

Both searches count from an index of their own.  What they find is therefore stated with the
distance from that index (`firstOffence_eq_some_iff`, `firstDisorder_eq_some_iff`).
-/

set_option autoImplicit false

namespace Slidecast.Speech

open Number

/-! ## Offences -/

/-- The times of a word are finite, and it does not start after it stops. -/
structure Word.IsProper (w : Word) : Prop where
  finite : w.start.isFinite = true ∧ w.stop.isFinite = true
  forward : w.start.toRat ≤ w.stop.toRat

/-- What is said about a word that is wrong by itself: times that are not finite go before times
that are in the wrong order. -/
def Word.fault (index : Nat) (w : Word) : Refusal :=
  if w.start.isFinite = true ∧ w.stop.isFinite = true then
    .endsBeforeStart index w.text w.start w.stop
  else .timeNotFinite index w.text

/-- The word at an index is wrong by itself. -/
def ImproperAt (words : List Word) (i : Nat) : Prop := ∃ w, words[i]? = some w ∧ ¬ w.IsProper

/-- The word at an index starts before its predecessor. -/
def BackAt (words : List Word) (i : Nat) : Prop :=
  ∃ j v w, i = j + 1 ∧ words[j]? = some v ∧ words[i]? = some w ∧ w.start.toRat < v.start.toRat

/-- If the first index is passed over, the least one is found among the others. -/
theorem isLeast_succ_iff {P : Nat → Prop} (passed : ¬ P 0) {k : Nat} :
    IsLeast {i | P i} (k + 1) ↔ IsLeast {i | P (i + 1)} k := by
  constructor
  · rintro ⟨here, least⟩
    exact ⟨here, fun i there => Nat.le_of_succ_le_succ (least there)⟩
  · rintro ⟨here, least⟩
    refine ⟨here, fun i there => ?_⟩
    cases i with
    | zero => exact absurd there passed
    | succ i => exact Nat.succ_le_succ (least there)

section Words

variable {v w : Word} {ws : List Word} {i : Nat}

theorem improperAt_zero : ImproperAt (w :: ws) 0 ↔ ¬ w.IsProper := by
  simp [ImproperAt]

theorem improperAt_succ : ImproperAt (w :: ws) (i + 1) ↔ ImproperAt ws i := by
  simp [ImproperAt]

theorem forall_isProper_iff {words : List Word} :
    (∀ w ∈ words, w.IsProper) ↔ ∀ i, ¬ ImproperAt words i := by
  simp only [ImproperAt, not_exists, not_and, not_not, List.mem_iff_getElem?]
  exact ⟨fun proper i w here => proper w ⟨i, here⟩, fun proper w ⟨i, here⟩ => proper i w here⟩

theorem not_backAt_zero {words : List Word} : ¬ BackAt words 0 := by
  rintro ⟨j, v, w, absent, _⟩
  cases absent

theorem backAt_one : BackAt (v :: w :: ws) 1 ↔ w.start.toRat < v.start.toRat := by
  constructor
  · rintro ⟨j, v', w', isOne, isFirst, isSecond, back⟩
    cases isOne
    cases isFirst
    cases isSecond
    exact back
  · exact fun back => ⟨0, v, w, rfl, rfl, rfl, back⟩

/-- Behind the first word, no predecessor is lost but for the second word. -/
theorem backAt_succ_succ : BackAt (v :: w :: ws) (i + 2) ↔ BackAt (w :: ws) (i + 1) := by
  constructor
  · rintro ⟨j, v', w', isNext, isFirst, isSecond, back⟩
    cases isNext
    exact ⟨i, v', w', rfl, isFirst, isSecond, back⟩
  · rintro ⟨j, v', w', isNext, isFirst, isSecond, back⟩
    cases isNext
    exact ⟨i + 1, v', w', rfl, isFirst, isSecond, back⟩

/-! ## What the searches find -/

theorem isProper_iff :
    w.IsProper ↔ w.start.isFinite = true ∧ w.stop.isFinite = true ∧ ¬ w.stop < w.start := by
  have order (start : w.start.isFinite = true) (stop : w.stop.isFinite = true) :
      ¬ w.stop < w.start ↔ w.start.toRat ≤ w.stop.toRat := by
    rw [Binary.lt_iff_toRat_lt stop start, not_lt]
  constructor
  · rintro ⟨⟨start, stop⟩, forward⟩
    exact ⟨start, stop, (order start stop).2 forward⟩
  · rintro ⟨start, stop, forward⟩
    exact ⟨⟨start, stop⟩, (order start stop).1 forward⟩

theorem offence_of_isProper (index : Nat) (proper : w.IsProper) : w.offence index = none :=
  (offence_eq_none_iff index).2 (isProper_iff.1 proper)

theorem offence_of_not_isProper (index : Nat) (improper : ¬ w.IsProper) :
    w.offence index = some (w.fault index) := by
  rw [isProper_iff] at improper
  unfold Word.offence Word.fault
  by_cases finite : w.start.isFinite = true ∧ w.stop.isFinite = true
  · have inverted : w.stop < w.start := by
      by_contra forward
      exact improper ⟨finite.1, finite.2, forward⟩
    simp [finite, inverted]
  · have infinite : (!w.start.isFinite || !w.stop.isFinite) = true := by
      simpa [imp_iff_not_or] using finite
    rw [if_pos infinite, if_neg finite]

/-- **The first offence of a word** is at the least index with a word that is wrong by itself. -/
theorem firstOffence_eq_some_iff (index : Nat) {words : List Word} {refusal : Refusal} :
    firstOffence index words = some refusal ↔
      ∃ k w, IsLeast {i | ImproperAt words i} k ∧ words[k]? = some w ∧
        refusal = w.fault (index + k) := by
  induction words generalizing index with
  | nil => simp [firstOffence]
  | cons w ws ih =>
      rw [firstOffence]
      by_cases proper : w.IsProper
      · rw [offence_of_isProper index proper]
        have passed : ¬ ImproperAt (w :: ws) 0 := fun improper => improperAt_zero.1 improper proper
        have shift (k : Nat) :
            IsLeast {i | ImproperAt (w :: ws) i} (k + 1) ↔ IsLeast {i | ImproperAt ws i} k := by
          rw [isLeast_succ_iff passed]
          simp only [improperAt_succ]
        refine (ih (index + 1)).trans ⟨?_, ?_⟩
        · rintro ⟨k, v, least, here, rfl⟩
          exact ⟨k + 1, v, (shift k).2 least, here, by rw [Nat.add_right_comm, Nat.add_assoc]⟩
        · rintro ⟨k, v, least, here, rfl⟩
          cases k with
          | zero => exact absurd least.1 passed
          | succ k =>
              exact ⟨k, v, (shift k).1 least, here, by rw [Nat.add_right_comm, Nat.add_assoc]⟩
      · rw [offence_of_not_isProper index proper]
        have least : IsLeast {i | ImproperAt (w :: ws) i} 0 :=
          ⟨improperAt_zero.2 proper, fun i _ => Nat.zero_le i⟩
        constructor
        · rintro ⟨rfl⟩
          exact ⟨0, w, least, rfl, rfl⟩
        · rintro ⟨k, v, other, here, rfl⟩
          cases other.unique least
          cases here
          rfl

/-- **The first disorder** of words with finite times is at the least index with a word that starts
before its predecessor. -/
theorem firstDisorder_eq_some_iff (index : Nat) {words : List Word} {n : Nat}
    (finite : ∀ w ∈ words, w.start.isFinite = true) :
    firstDisorder index words = some n ↔
      ∃ k, IsLeast {i | BackAt words i} k ∧ n = index + k := by
  induction words generalizing index with
  | nil => simp [firstDisorder, IsLeast, BackAt]
  | cons v ws ih =>
      cases ws with
      | nil =>
          have never (i : Nat) : ¬ BackAt [v] i := by
            rintro ⟨j, u, w, rfl, _, absent, _⟩
            cases absent
          simp [firstDisorder, IsLeast, never]
      | cons w ws =>
          have finites := List.forall_mem_cons.1 finite
          have order : w.start < v.start ↔ w.start.toRat < v.start.toRat :=
            Binary.lt_iff_toRat_lt (finites.2 w List.mem_cons_self) finites.1
          rw [firstDisorder]
          split
          next back =>
            have least : IsLeast {i | BackAt (v :: w :: ws) i} 1 :=
              ⟨backAt_one.2 (order.1 back), fun i there => Nat.one_le_iff_ne_zero.2
                fun zero => not_backAt_zero (zero ▸ there)⟩
            constructor
            · rintro ⟨rfl⟩
              exact ⟨1, least, rfl⟩
            · rintro ⟨k, other, rfl⟩
              rw [other.unique least]
          next forth =>
            -- the second word stays for the next pair, so indices move by one and not by two
            have passed : ¬ BackAt (v :: w :: ws) 1 := fun back => forth (order.2 (backAt_one.1 back))
            have shift (i : Nat) : BackAt (v :: w :: ws) (i + 1) ↔ BackAt (w :: ws) i := by
              cases i with
              | zero => exact iff_of_false passed not_backAt_zero
              | succ i => exact backAt_succ_succ
            have least (k : Nat) : IsLeast {i | BackAt (v :: w :: ws) i} (k + 1) ↔
                IsLeast {i | BackAt (w :: ws) i} k := by
              rw [isLeast_succ_iff not_backAt_zero]
              simp only [shift]
            refine (ih (index + 1) finites.2).trans ⟨?_, ?_⟩
            · rintro ⟨k, isLeast, rfl⟩
              exact ⟨k + 1, (least k).2 isLeast, by rw [Nat.add_right_comm, Nat.add_assoc]⟩
            · rintro ⟨k, isLeast, rfl⟩
              cases k with
              | zero => exact absurd isLeast.1 not_backAt_zero
              | succ k =>
                  exact ⟨k, (least k).1 isLeast, by rw [Nat.add_right_comm, Nat.add_assoc]⟩

end Words

/-! ## Acceptance -/

namespace Transcript

variable {words : List Word}

theorem ofWords_eq_error_iff {failure : Failure} :
    ofWords words = .error failure ↔
      ∃ refusal, offenceOf words = some refusal ∧ failure = .invalidInput refusal := by
  cases offends : offenceOf words with
  | none => simp [ofWords_eq_ok offends]
  | some refusal => simp [ofWords_eq_error offends, eq_comm]

/-- A row of words is accepted exactly if nothing is wrong with it. -/
theorem exists_ofWords_eq_ok_iff :
    (∃ t, ofWords words = .ok t) ↔
      (∀ w ∈ words, w.IsProper) ∧ words.Pairwise fun v w => v.start.toRat ≤ w.start.toRat := by
  constructor
  · rintro ⟨t, accepted⟩
    rw [← words_of_ofWords_eq_ok accepted]
    exact ⟨fun w member => ⟨⟨isFinite_start member, isFinite_stop member⟩, start_le_stop member⟩,
      t.pairwise_start_le⟩
  · rintro ⟨proper, ordered⟩
    have timed : firstOffence 0 words = none :=
      (firstOffence_eq_none_iff 0).2 fun w member => isProper_iff.1 (proper w member)
    have chain : words.IsChain fun v w => ¬ w.start < v.start := by
      refine List.IsChain.imp_of_mem_imp (fun v w hv hw forth => ?_) ordered.isChain
      rw [Binary.lt_iff_toRat_lt (proper w hw).finite.1 (proper v hv).finite.1]
      exact not_lt.2 forth
    have sound : offenceOf words = none := by
      rw [offenceOf, timed, (firstDisorder_eq_none_iff 0).2 chain]
      rfl
    exact ⟨_, ofWords_eq_ok sound⟩

/-- **Which words are accepted, and what is refused of the others.**  Words are accepted as they are
if and only if all times are finite, no word starts after it stops, and the starts never go back.
Otherwise the least index with a word that is wrong by itself is reported, and only if there is
none, the least index with a word that starts before its predecessor. -/
theorem ofWords_first_offence (words : List Word) :
    ((∃ t, ofWords words = .ok t) ↔
      (∀ w ∈ words, w.IsProper) ∧ words.Pairwise fun v w => v.start.toRat ≤ w.start.toRat) ∧
    (∀ t, ofWords words = .ok t → t.words = words) ∧
    ∀ failure, ofWords words = .error failure ↔
      (∃ i w, IsLeast {i | ImproperAt words i} i ∧ words[i]? = some w ∧
        failure = .invalidInput (w.fault i)) ∨
      ((∀ w ∈ words, w.IsProper) ∧
        ∃ i, IsLeast {i | BackAt words i} i ∧ failure = .invalidInput (.notOrdered i)) := by
  refine ⟨exists_ofWords_eq_ok_iff, fun t => words_of_ofWords_eq_ok, fun failure => ?_⟩
  rw [ofWords_eq_error_iff, offenceOf]
  cases first : firstOffence 0 words with
  | some refusal =>
      obtain ⟨k, w, least, here, rfl⟩ := (firstOffence_eq_some_iff 0).1 first
      have improper : ¬ ∀ w ∈ words, w.IsProper := fun proper =>
        forall_isProper_iff.1 proper k least.1
      rw [Nat.zero_add]
      constructor
      · rintro ⟨_, ⟨rfl⟩, rfl⟩
        exact .inl ⟨k, w, least, here, rfl⟩
      · rintro (⟨i, v, other, there, rfl⟩ | ⟨proper, _⟩)
        · cases other.unique least
          rw [here] at there
          cases there
          exact ⟨_, rfl, rfl⟩
        · exact absurd proper improper
  | none =>
      have proper : ∀ w ∈ words, w.IsProper := fun w member =>
        isProper_iff.2 ((firstOffence_eq_none_iff 0).1 first w member)
      have finite : ∀ w ∈ words, w.start.isFinite = true := fun w member =>
        (proper w member).finite.1
      have clean : ¬ ∃ i w, IsLeast {i | ImproperAt words i} i ∧ words[i]? = some w ∧
          failure = .invalidInput (w.fault i) := fun ⟨i, _, least, _⟩ =>
        forall_isProper_iff.1 proper i least.1
      simp only [Option.map_eq_some_iff, firstDisorder_eq_some_iff 0 finite, Nat.zero_add]
      rw [or_iff_right clean, and_iff_right proper]
      constructor
      · rintro ⟨_, ⟨n, ⟨i, least, rfl⟩, rfl⟩, rfl⟩
        exact ⟨n, least, rfl⟩
      · rintro ⟨i, least, rfl⟩
        exact ⟨_, ⟨i, ⟨i, least, rfl⟩, rfl⟩, rfl⟩

/-- The third word has a time that is not finite, and that is reported before the disorder of the
second one. -/
example :
    (ofWords [⟨"a", 1, 2⟩, ⟨"b", 0, 1⟩, ⟨"c", 3, .nan⟩, ⟨"d", 9, 8⟩]).toOption = none ∧
      offenceOf [⟨"a", 1, 2⟩, ⟨"b", 0, 1⟩, ⟨"c", 3, .nan⟩, ⟨"d", 9, 8⟩] =
        some (.timeNotFinite 2 "c") := by decide +kernel

end Transcript

end Slidecast.Speech
