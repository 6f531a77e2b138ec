import Slidecast.Proofs.Subtitle.Groups

/-!
# How words are dealt to captions

Words are dealt from the front: every group takes as many words as fit, and leaves the rest to the
next one (`groups_cons`).  So a group is a stretch of the words whose place is known from its number
(`getElem?_groups`), every group with another one behind it is full (`length_of_getElem?_groups`),
and the captions are those of the stretches, in order (`map_some_captions`).

Within a caption, a word that has a next one is lit for a time that only their two starts decide, and
the last one for its own time (`getElem?_beats`).
-/

set_option autoImplicit false

namespace Slidecast.Subtitle

open Number Speech

/-! ## Stretches of a list -/

section Groups

variable {α : Type} {as group : List α} {size index : Nat}

theorem groups_nil (size : Nat) : groups size ([] : List α) = [] := by
  rw [groups]

/-- A group takes as many elements as fit, and leaves the others. -/
theorem groups_cons (size : Nat) (a : α) (as : List α) :
    groups size (a :: as) =
      (a :: as).take (max 1 size) :: groups size ((a :: as).drop (max 1 size)) := by
  have fits : max 1 size = size - 1 + 1 := by omega
  rw [groups, fits, List.take_succ_cons, List.drop_succ_cons]

/-- **The place of a group** in what was dealt. -/
theorem getElem?_groups (size : Nat) (as : List α) (index : Nat) :
    (groups size as)[index]? =
      if index * max 1 size < as.length then
        some ((as.drop (index * max 1 size)).take (max 1 size))
      else none := by
  induction index generalizing as with
  | zero =>
      cases as with
      | nil => rw [groups_nil]; rfl
      | cons a as => rw [groups_cons]; simp
  | succ index ih =>
      cases as with
      | nil => rw [groups_nil]; simp
      | cons a as =>
          have behind : index * max 1 size < ((a :: as).drop (max 1 size)).length ↔
              (index + 1) * max 1 size < (a :: as).length := by
            rw [List.length_drop, Nat.succ_mul]
            omega
          rw [groups_cons, List.getElem?_cons_succ, ih, List.drop_drop, Nat.succ_mul,
            Nat.add_comm (max 1 size)]
          simp only [behind, Nat.succ_mul]

/-- A group has at least one element and no more than fit; with a group behind it, it is full. -/
theorem length_of_getElem?_groups (found : (groups size as)[index]? = some group) :
    1 ≤ group.length ∧ group.length ≤ max 1 size ∧
      (index + 1 < (groups size as).length → group.length = max 1 size) := by
  rw [getElem?_groups] at found
  split at found
  next within =>
    obtain rfl := Option.some.inj found
    rw [List.length_take, List.length_drop]
    refine ⟨by omega, by omega, fun behind => ?_⟩
    have next := List.getElem?_eq_getElem behind
    rw [getElem?_groups] at next
    split at next
    next room =>
      rw [Nat.succ_mul] at room
      omega
    next => cases next
  next => cases found

end Groups

/-! ## The beats of a line -/

/-- How long a word is lit from one time to another. -/
def litFor (start stop : Double) : Double := (stop - start).larger shortestHighlight

/-- **How long the words of a line are lit**: up to the start of the next one, the last one up to its
own end. -/
theorem getElem?_beats (words : List Word) (j : Nat) :
    (beats words)[j]? = words[j]?.map fun v =>
      ⟨v.text, litFor v.start ((words[j + 1]?.map Word.start).getD v.stop)⟩ := by
  fun_induction beats words generalizing j with
  | case1 => rfl
  | case2 w =>
      cases j with
      | zero => rfl
      | succ j => rfl
  | case3 v w words ih =>
      cases j with
      | zero => rfl
      | succ j => exact ih j

/-! ## Captions of a transcript -/

section Captions

variable {group : List Word} {c : Caption}

/-- A caption shows the words of a group, from the start of the first one to the end of the last one,
and a word that is not the last is lit up to the start of the next one. -/
structure Presents (group : List Word) (c : Caption) : Prop where
  texts : c.beats.map Beat.text = group.map Word.text
  begins : group.head?.map Word.start = some c.start
  ends : group.getLast?.map Word.stop = some c.stop
  lit : ∀ j v w, group[j]? = some v → group[j + 1]? = some w →
    c.beats[j]?.map Beat.highlight = some (litFor v.start w.start)

theorem presents_of_caption? (made : caption? group = some c) : Presents group c := by
  obtain ⟨first, begins, last, ends, rfl⟩ := caption?_eq_some_iff.1 made
  rw [Option.mem_def] at begins ends
  exact {
    texts := map_text_beats group
    begins := by rw [begins, Option.map_some]
    ends := by rw [ends, Option.map_some]
    lit := by
      intro j v w here next
      rw [getElem?_beats, here, next, Option.map_some, Option.map_some]
      rfl }

theorem Presents.length_beats (presents : Presents group c) : c.beats.length = group.length := by
  rw [← List.length_map Beat.text, presents.texts, List.length_map]

/-- The captions are those of the groups, one by one. -/
theorem map_some_captions (t : Transcript) (n : Nat) :
    (captions t n).map some = (groups n t.words).map caption? := by
  have each := forall₂_captions t n
  generalize groups n t.words = lines, captions t n = cs at each
  induction each with
  | nil => rfl
  | cons made _ ih => rw [List.map_cons, List.map_cons, ih, made]

/-- A caption presents the group with its number. -/
theorem exists_presents (t : Transcript) (n : Nat) {index : Nat}
    (found : (captions t n)[index]? = some c) :
    ∃ group, (groups n t.words)[index]? = some group ∧ Presents group c := by
  have same := congrArg (·[index]?) (map_some_captions t n)
  simp only [List.getElem?_map, found, Option.map_some] at same
  obtain ⟨group, dealt, made⟩ := Option.map_eq_some_iff.1 same.symm
  exact ⟨group, dealt, presents_of_caption? made⟩

theorem length_captions (t : Transcript) (n : Nat) :
    (captions t n).length = (groups n t.words).length :=
  (forall₂_captions t n).length_eq.symm

/-- The texts of all captions are those of all words. -/
theorem flatMap_texts_captions (t : Transcript) (n : Nat) :
    ((captions t n).flatMap fun c => c.beats.map Beat.text) = t.words.map Word.text := by
  have each := forall₂_captions t n
  rw [← congrArg (List.map Word.text) (flatten_groups n t.words)]
  generalize groups n t.words = lines, captions t n = cs at each
  induction each with
  | nil => rfl
  | cons made _ ih =>
      rw [List.flatMap_cons, List.flatten_cons, List.map_append, ih,
        (presents_of_caption? made).texts]

theorem captions_eq_nil_iff (t : Transcript) (n : Nat) : captions t n = [] ↔ t.words = [] := by
  rw [← List.length_eq_zero_iff, length_captions, List.length_eq_zero_iff]
  constructor
  · intro none
    rw [← flatten_groups n t.words, none, List.flatten_nil]
  · intro none
    rw [none, groups_nil]

/-- Captions share words out between them, so many to each, and leave none. -/
structure Deals (size : Nat) (words : List Word) (cs : List Caption) : Prop where
  texts : (cs.flatMap fun c => c.beats.map Beat.text) = words.map Word.text
  presents : ∀ index c, cs[index]? = some c → Presents ((words.drop (index * size)).take size) c
  full : ∀ c ∈ cs.dropLast, c.beats.length = size
  last : ∀ c ∈ cs.getLast?, 1 ≤ c.beats.length ∧ c.beats.length ≤ size
  nothing : cs = [] ↔ words = []

/-- **The words of a transcript are dealt to its captions**: all of them in their order, the same
number to each caption but the last, which gets at least one; a number of no words counts as one. -/
theorem captions_deal (t : Transcript) (n : Nat) : Deals (max 1 n) t.words (captions t n) where
  texts := flatMap_texts_captions t n
  presents := by
    intro index c found
    obtain ⟨group, dealt, presents⟩ := exists_presents t n found
    rw [getElem?_groups] at dealt
    split at dealt
    next =>
      obtain rfl := Option.some.inj dealt
      exact presents
    next => cases dealt
  full := by
    intro c member
    obtain ⟨index, found⟩ := List.mem_iff_getElem?.1 member
    rw [List.getElem?_dropLast] at found
    split at found
    next before =>
      obtain ⟨group, dealt, presents⟩ := exists_presents t n found
      rw [length_captions] at before
      rw [presents.length_beats]
      exact (length_of_getElem?_groups dealt).2.2 (by omega)
    next => cases found
  last := by
    intro c isLast
    rw [Option.mem_def, List.getLast?_eq_getElem?] at isLast
    obtain ⟨group, dealt, presents⟩ := exists_presents t n isLast
    obtain ⟨filled, fits, _⟩ := length_of_getElem?_groups dealt
    rw [presents.length_beats]
    exact ⟨filled, fits⟩
  nothing := captions_eq_nil_iff t n

end Captions

end Slidecast.Subtitle
