import Slidecast.Proofs.Subtitle.Reading

/-!
# The order of cues

The times of a line of dialogue are its second and its third field.  They are read from the line of
every caption, whatever its words are (`cueTimes?_line`): no cue stops before it starts, and none
starts before the one in front of it (`cues_chronological`).

The starts of the words never go back, and no word stops before it starts.  So the last word of a
group stops no earlier than the first one starts (`forth_of_mem_captions`), and the first words of the
groups are in order (`pairwise_start_captions`).  Writing times in hundredths keeps their order.
-/

set_option autoImplicit false

namespace Slidecast.Subtitle

open Number Speech

/-! ## Reading the times of a cue -/

/-- The hundredths at which a line of dialogue is shown and taken away. -/
def cueTimes? (line : List Char) : Option (Nat × Nat) :=
  match line.splitOn ',' with
  | layer :: start :: stop :: _ => do
      guard ("Dialogue:".toList.isPrefixOf layer)
      some (← clock? start, ← clock? stop)
  | _ => none

/-- The hundredths of a second that belong to the times of a caption. -/
def Caption.times (c : Caption) : Nat × Nat := (centisecondsAt c.start, centisecondsAt c.stop)

/-- The times of a caption are read from its line. -/
theorem cueTimes?_line (c : Caption) : cueTimes? c.line.toList = some c.times := by
  have layer : ',' ∉ "Dialogue: 0".toList := by decide
  have start : ',' ∉ (timeText c.start).toList := not_mem_timeText (.inl rfl)
  have stop : ',' ∉ (timeText c.stop).toList := not_mem_timeText (.inl rfl)
  obtain ⟨more, fields⟩ : ∃ more, c.line.toList.splitOn ',' =
      "Dialogue: 0".toList :: (timeText c.start).toList :: (timeText c.stop).toList :: more := by
    unfold Caption.line cueLine
    rw [toList_cue]
    unfold lead
    simp only [List.append_assoc, List.cons_append]
    rw [List.splitOn_append_cons_self, List.splitOn_append_cons_self,
      List.splitOn_append_cons_self, List.splitOn_eq_singleton layer,
      List.splitOn_eq_singleton start, List.splitOn_eq_singleton stop]
    exact ⟨_, rfl⟩
  have dialogue : "Dialogue:".toList.isPrefixOf "Dialogue: 0".toList = true := rfl
  simp only [cueTimes?, fields, dialogue, guard, if_true, clock?_timeText, Option.bind_eq_bind,
    Option.bind_some, Option.pure_def, Caption.times]

/-! ## The order of captions -/

section Captions

variable {t : Transcript} {n : Nat}

/-- The times of a caption are finite, and it does not stop before it starts. -/
theorem forth_of_mem_captions {c : Caption} (member : c ∈ captions t n) :
    c.start.isFinite = true ∧ c.stop.isFinite = true ∧ c.start.toRat ≤ c.stop.toRat := by
  obtain ⟨line, dealt, made⟩ := List.mem_filterMap.1 member
  obtain ⟨first, begins, last, ends, rfl⟩ := caption?_eq_some_iff.1 made
  have firstMember : first ∈ t.words :=
    mem_words_of_mem_groups dealt (List.mem_of_mem_head? begins)
  have lastMember : last ∈ t.words :=
    mem_words_of_mem_groups dealt (List.mem_of_mem_getLast? ends)
  have starts : first.start.toRat ≤ last.start.toRat := by
    obtain ⟨rest, rfl⟩ := List.head?_eq_some_iff.1 begins
    have ordered := (pairwise_start_groups t n).1 _ dealt
    rcases List.mem_cons.1 (List.mem_of_mem_getLast? ends) with rfl | later
    · exact le_rfl
    · exact List.rel_of_pairwise_cons ordered later
  exact ⟨Transcript.isFinite_start firstMember, Transcript.isFinite_stop lastMember,
    starts.trans (Transcript.start_le_stop lastMember)⟩

/-- The starts of the captions never go back. -/
theorem pairwise_start_captions (t : Transcript) (n : Nat) :
    (captions t n).Pairwise fun earlier later => earlier.start.toRat ≤ later.start.toRat := by
  apply List.pairwise_filterMap.2
  apply (pairwise_start_groups t n).2.imp
  intro earlier later ordered c made d made'
  obtain ⟨first, begins, _, _, rfl⟩ := caption?_eq_some_iff.1 made
  obtain ⟨first', begins', _, _, rfl⟩ := caption?_eq_some_iff.1 made'
  exact ordered first (List.mem_of_mem_head? begins) first' (List.mem_of_mem_head? begins')

end Captions

/-! ## The order of cues -/

/-- Times of cues that go on: none stops before it starts, or starts before an earlier one. -/
structure Chronological (times : List (Nat × Nat)) : Prop where
  forth : ∀ cue ∈ times, cue.1 ≤ cue.2
  ordered : times.Pairwise fun earlier later => earlier.1 ≤ later.1

/-- **Cues are chronological**, as their times are read from the lines of dialogue. -/
theorem cues_chronological (t : Transcript) (n : Nat) :
    ∃ times, (captions t n).map (fun c => cueTimes? c.line.toList) = times.map some ∧
      Chronological times := by
  refine ⟨(captions t n).map Caption.times, ?_, ?_, ?_⟩
  · rw [List.map_map]
    exact List.map_congr_left fun c _ => cueTimes?_line c
  · intro cue member
    obtain ⟨c, among, rfl⟩ := List.mem_map.1 member
    obtain ⟨first, second, forth⟩ := forth_of_mem_captions among
    exact centisecondsAt_mono first second forth
  · rw [List.pairwise_map]
    apply (pairwise_start_captions t n).imp_of_mem
    intro earlier later among among' ordered
    exact centisecondsAt_mono (forth_of_mem_captions among).1 (forth_of_mem_captions among').1
      ordered

/-- What lies before zero and what is beyond the clock is shown at its ends. -/
example : ([-5, 0.125, 1e300] : List Double).map centisecondsAt = [0, 13, latestTime] := by
  decide +kernel

end Slidecast.Subtitle
