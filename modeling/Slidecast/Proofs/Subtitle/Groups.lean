import Mathlib.Data.List.Forall2
import Slidecast.Proofs.Speech.Soundness
import Slidecast.Subtitle.Caption

/-!
# Groups of words

The words of a transcript are dealt to groups, none of which is empty, and nothing is lost when
they are (`flatten_groups`), nor is their order (`pairwise_start_groups`).  Every group has one
caption, which starts with its first word, stops with its last and has a beat for each
(`forall₂_captions`, `caption?_eq_some_iff`).
-/

set_option autoImplicit false

namespace Slidecast.Subtitle

open Speech

/-- Nothing is lost when words are dealt to groups. -/
theorem flatten_groups {α : Type} (size : Nat) (as : List α) : (groups size as).flatten = as := by
  fun_induction groups size as with
  | case1 => rfl
  | case2 a as ih => rw [List.flatten_cons, ih, List.cons_append, List.take_append_drop]

theorem ne_nil_of_mem_groups {α : Type} {size : Nat} {as group : List α}
    (member : group ∈ groups size as) : group ≠ [] := by
  fun_induction groups size as with
  | case1 => simp at member
  | case2 a as ih =>
      rcases List.mem_cons.1 member with rfl | later
      · exact List.cons_ne_nil _ _
      · exact ih later

theorem map_text_beats (words : List Word) : (beats words).map Beat.text = words.map Word.text := by
  fun_induction beats words with
  | case1 => rfl
  | case2 w => rfl
  | case3 v w words ih => exact congrArg (v.text :: ·) ih

theorem length_beats (words : List Word) : (beats words).length = words.length := by
  rw [← List.length_map Beat.text, map_text_beats, List.length_map]

/-! ## Groups of a transcript -/

theorem mem_words_of_mem_groups {t : Transcript} {n : Nat} {line : List Word}
    (dealt : line ∈ groups n t.words) {w : Word} (member : w ∈ line) : w ∈ t.words := by
  rw [← flatten_groups n t.words]
  exact List.mem_flatten_of_mem dealt member

/-- The words of a group are in order, and so are the words of different groups. -/
theorem pairwise_start_groups (t : Transcript) (n : Nat) :
    (∀ line ∈ groups n t.words, line.Pairwise fun v w => v.start.toRat ≤ w.start.toRat) ∧
      (groups n t.words).Pairwise fun earlier later =>
        ∀ v ∈ earlier, ∀ w ∈ later, v.start.toRat ≤ w.start.toRat := by
  have ordered := t.pairwise_start_le
  rwa [← flatten_groups n t.words, List.pairwise_flatten] at ordered

/-! ## Captions of groups -/

/-- What the caption of a group is. -/
theorem caption?_eq_some_iff {group : List Word} {c : Caption} :
    caption? group = some c ↔
      ∃ first ∈ group.head?, ∃ last ∈ group.getLast?, c = ⟨first.start, last.stop, beats group⟩ := by
  unfold caption?
  cases group.head? with
  | none => simp
  | some first =>
      cases group.getLast? with
      | none => simp
      | some last => simp [eq_comm]

theorem exists_caption? {group : List Word} (filled : group ≠ []) :
    ∃ c, caption? group = some c :=
  ⟨_, caption?_eq_some_iff.2 ⟨_, List.head?_eq_some_head filled, _,
    List.getLast?_eq_some_getLast filled, rfl⟩⟩

/-- **Every group has one caption**, and there are no others. -/
theorem forall₂_captions (t : Transcript) (n : Nat) :
    List.Forall₂ (fun group c => caption? group = some c) (groups n t.words) (captions t n) := by
  have each : ∀ gathered : List (List Word), (∀ group ∈ gathered, group ≠ []) →
      List.Forall₂ (fun group c => caption? group = some c) gathered
        (gathered.filterMap caption?) := by
    intro gathered filled
    induction gathered with
    | nil => exact .nil
    | cons group gathered ih =>
        rw [List.forall_mem_cons] at filled
        obtain ⟨c, made⟩ := exists_caption? filled.1
        rw [List.filterMap_cons, made]
        exact .cons made (ih filled.2)
  exact each _ fun group => ne_nil_of_mem_groups

end Slidecast.Subtitle
