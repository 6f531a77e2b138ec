import Slidecast.Speech.Transcript
import Slidecast.Proofs.Number.Order
import Mathlib.Data.List.Chain

/-!
# What a transcript guarantees

A transcript carries the fact that nothing is wrong with its words.  This module reads from it
what other modules need: all times are finite, no word stops before it starts, and the starts
never go back.  In particular, every word starts before the speech ends.
-/

set_option autoImplicit false

namespace Slidecast.Speech

open Number

/-- Nothing is wrong with a word by itself exactly when its times are finite and in order. -/
theorem offence_eq_none_iff (index : Nat) {w : Word} :
    w.offence index = none ↔
      w.start.isFinite = true ∧ w.stop.isFinite = true ∧ ¬ w.stop < w.start := by
  unfold Word.offence
  split
  next infinite =>
    simp only [Bool.or_eq_true, Bool.not_eq_true'] at infinite
    rcases infinite with start | stop
    · simp [start]
    · simp [stop]
  next finite =>
    simp only [Bool.or_eq_true, Bool.not_eq_true', not_or, Bool.not_eq_false] at finite
    split
    next inverted => simp [inverted]
    next ordered => simp [finite, ordered]

theorem firstOffence_eq_none_iff (index : Nat) {words : List Word} :
    firstOffence index words = none ↔
      ∀ w ∈ words, w.start.isFinite = true ∧ w.stop.isFinite = true ∧ ¬ w.stop < w.start := by
  induction words generalizing index with
  | nil => simp [firstOffence]
  | cons w ws ih =>
      rw [List.forall_mem_cons, ← offence_eq_none_iff index, ← ih (index + 1), firstOffence]
      cases w.offence index with
      | none => simp
      | some refusal => simp

theorem firstDisorder_eq_none_iff (index : Nat) {words : List Word} :
    firstDisorder index words = none ↔ words.IsChain fun v w => ¬ w.start < v.start := by
  induction words generalizing index with
  | nil => simp [firstDisorder]
  | cons v ws ih =>
      cases ws with
      | nil => simp [firstDisorder]
      | cons w ws =>
          rw [firstDisorder, List.isChain_cons_cons, ← ih (index + 1)]
          split
          next back => simp [back]
          next forth => simp [forth]

namespace Transcript

theorem ofWords_eq_ok {words : List Word} (sound : offenceOf words = none) :
    ofWords words = .ok ⟨words, sound⟩ := by
  unfold ofWords
  split
  next => rfl
  next refused => rw [sound] at refused; cases refused

theorem ofWords_eq_error {words : List Word} {refusal : Refusal}
    (offends : offenceOf words = some refusal) :
    ofWords words = .error (.invalidInput refusal) := by
  unfold ofWords
  split
  next sound => rw [offends] at sound; cases sound
  next other same =>
    rw [offends] at same
    cases same
    rfl

theorem words_of_ofWords_eq_ok {words : List Word} {t : Transcript}
    (accepted : ofWords words = .ok t) : t.words = words := by
  unfold ofWords at accepted
  split at accepted
  · cases accepted
    rfl
  · cases accepted

theorem eq_of_words_eq {t u : Transcript} (same : t.words = u.words) : t = u := by
  obtain ⟨words, sound⟩ := t
  cases same
  rfl

variable (t : Transcript)

theorem sound_parts : firstOffence 0 t.words = none ∧ firstDisorder 0 t.words = none := by
  have sound := t.sound
  unfold offenceOf at sound
  split at sound
  · cases sound
  next finite => exact ⟨finite, by simpa using sound⟩

variable {t} {w : Word}

theorem isFinite_start (member : w ∈ t.words) : w.start.isFinite = true :=
  ((firstOffence_eq_none_iff 0).1 t.sound_parts.1 w member).1

theorem isFinite_stop (member : w ∈ t.words) : w.stop.isFinite = true :=
  ((firstOffence_eq_none_iff 0).1 t.sound_parts.1 w member).2.1

theorem start_le_stop (member : w ∈ t.words) : w.start.toRat ≤ w.stop.toRat := by
  have ordered := ((firstOffence_eq_none_iff 0).1 t.sound_parts.1 w member).2.2
  rw [Binary.lt_iff_toRat_lt (isFinite_stop member) (isFinite_start member)] at ordered
  exact not_lt.1 ordered

variable (t) in
/-- The starts never go back. -/
theorem pairwise_start_le : t.words.Pairwise fun v w => v.start.toRat ≤ w.start.toRat := by
  have finite : ∀ w ∈ t.words, w.start.isFinite = true := fun w member => isFinite_start member
  have chain := (firstDisorder_eq_none_iff 0).1 t.sound_parts.2
  have byValue : t.words.IsChain fun v w => v.start.toRat ≤ w.start.toRat := by
    refine List.IsChain.imp_of_mem_imp (fun v w hv hw forth => ?_) chain
    rw [Binary.lt_iff_toRat_lt (finite w hw) (finite v hv)] at forth
    exact not_lt.1 forth
  have trans : IsTrans Word fun v w => v.start.toRat ≤ w.start.toRat :=
    ⟨fun _ _ _ first second => first.trans second⟩
  exact List.isChain_iff_pairwise.1 byValue

/-- The word at which the speech ends. -/
theorem exists_last_of_stop? {stop : Double} (ends : t.stop? = some stop) :
    ∃ front last, t.words = front ++ [last] ∧ last.stop = stop := by
  unfold stop? at ends
  obtain ⟨last, isLast, rfl⟩ := Option.map_eq_some_iff.1 ends
  obtain ⟨front, split⟩ := List.getLast?_eq_some_iff.1 isLast
  exact ⟨front, last, split, rfl⟩

theorem isFinite_of_stop? {stop : Double} (ends : t.stop? = some stop) :
    stop.isFinite = true := by
  obtain ⟨front, last, split, rfl⟩ := exists_last_of_stop? ends
  exact isFinite_stop (t := t) (by simp [split])

/-- Every word starts before the speech ends. -/
theorem start_le_end {stop : Double} (ends : t.stop? = some stop) (member : w ∈ t.words) :
    w.start.toRat ≤ stop.toRat := by
  obtain ⟨front, last, split, rfl⟩ := exists_last_of_stop? ends
  have lastMember : last ∈ t.words := by simp [split]
  have pairwise := t.pairwise_start_le
  rw [split, List.pairwise_append] at pairwise
  rw [split, List.mem_append, List.mem_singleton] at member
  rcases member with inFront | rfl
  · exact (pairwise.2.2 w inFront last (by simp)).trans (start_le_stop lastMember)
  · exact start_le_stop lastMember

end Transcript

end Slidecast.Speech
