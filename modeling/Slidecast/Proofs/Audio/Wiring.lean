import Slidecast.Proofs.Audio.Reading

/-!
# The wiring of a mixdown

Tracks are added to a mixdown one after another, whatever their offsets and volumes are, and their
strands are numbered in this order (`addAll_empty`).  A mixdown whose strands are numbered is wired
(`Numbered.wired`): its labels differ from each other and from the label of the mix, one chain of
filters defines each of them, and the last chain consumes them in their order, each once.

What is read from its text are the delays, the texts of the volumes, and the dropout; all the rest
follows from the numbers (`Numbered.graph_eq`).  The text in turn is the text of what is read from it
(`text_eq_text_graph`), so two numbered mixdowns have the same text exactly if they agree in these
(`Numbered.text_eq_iff`).
-/

set_option autoImplicit false

namespace Slidecast.Audio

open Number

/-! ## Labels of chains -/

/-- The labels that the filters of a chain consume. -/
def consumedBy (chain : List Filter) : List String :=
  chain.flatMap fun filter => filter.consumes.map String.ofList

/-- The labels that the filters of a chain define. -/
def definedBy (chain : List Filter) : List String :=
  chain.flatMap fun filter => filter.defines.map String.ofList

/-- Chains of filters feed labels into a mix: each label is defined once, by one chain, and consumed
once; and it is the last chain that consumes the labels, in their order. -/
structure Feeds (chains : List (List Filter)) (labels : List String) : Prop where
  defined : ∀ label ∈ labels, (chains.flatMap definedBy).count label = 1
  definer : ∀ label ∈ labels, (chains.countP fun chain => label ∈ definedBy chain) = 1
  consumed : ∀ label ∈ labels, (chains.flatMap consumedBy).count label = 1
  mixed : chains.getLast?.map consumedBy = some labels

/-- What stands once in all rows stands in one row. -/
theorem countP_of_count_flatMap {α β : Type} [DecidableEq β] {rows : List α} {row : α → List β}
    {b : β} (once : (rows.flatMap row).count b = 1) : (rows.countP fun a => b ∈ row a) = 1 := by
  induction rows with
  | nil => cases once
  | cons a rows ih =>
      rw [List.flatMap_cons, List.count_append] at once
      rw [List.countP_cons]
      by_cases here : b ∈ row a
      · have counted : 0 < (row a).count b := List.count_pos_iff.2 here
        have elsewhere : b ∉ rows.flatMap row := List.count_eq_zero.1 (by omega)
        have others : (rows.countP fun a => b ∈ row a) = 0 := by
          rw [List.countP_eq_zero]
          intro a' member found
          exact elsewhere (List.mem_flatMap.2 ⟨a', member, of_decide_eq_true found⟩)
        simp [others, here]
      · rw [List.count_eq_zero.2 here, Nat.zero_add] at once
        simp [ih once, here]

/-! ## Texts of what is read -/

/-- The description of a voice. -/
def Voice.text (v : Voice) : String :=
  "[" ++ toString v.input ++ ":a]adelay=" ++ toString v.left ++ "|" ++ toString v.right ++
    ",volume=" ++ v.volume ++ "[" ++ v.label ++ "]"

/-- The description of a mix. -/
def Blend.text (b : Blend) : String :=
  String.join (b.consumes.map fun label => "[" ++ label ++ "]") ++
    "amix=inputs=" ++ toString b.count ++ (":duration=" ++ b.ends ++ ":dropout_transition=") ++
    toString b.dropout ++ "[" ++ b.defines ++ "]"

/-- The description of voices and of their mix. -/
def Graph.text (g : Graph) : String :=
  String.intercalate ";" (g.voices.map Voice.text ++ [g.blend.text])

/-- What is heard of a strand: its delay, and the text of its volume. -/
def Strand.heard (s : Strand) : Nat × String := (s.delay, s.volume.plain)

/-- The label of the track with a number. -/
def labelOf (k : Nat) : String := "a" ++ toString k

/-- The mix of tracks that are numbered in their order, when what is heard of them is given. -/
def mixOf (heard : List (Nat × String)) (dropout : Nat) : Graph where
  voices := heard.mapIdx fun k h => ⟨k, h.1, h.1, h.2, labelOf k⟩
  blend :=
    { consumes := (List.range heard.length).map labelOf
      count := heard.length
      ends := "first"
      dropout := dropout
      defines := mixLabel }

/-! ## Labels -/

theorem toList_labelOf (k : Nat) : (labelOf k).toList = 'a' :: (toString k).toList := by
  rw [labelOf, String.toList_append]
  rfl

theorem labelOf_injective : Function.Injective labelOf := by
  intro k k' same
  have digits := congrArg String.toList same
  rw [toList_labelOf, toList_labelOf] at digits
  have value := congrArg ofDigits (List.cons.inj digits).2
  rwa [ofDigits_toString, ofDigits_toString] at value

theorem labelOf_ne_mixLabel (k : Nat) : labelOf k ≠ mixLabel := by
  intro same
  have first := congrArg (fun text => text.toList.head?) same
  simp only [toList_labelOf, List.head?_cons] at first
  exact absurd first (by decide)

namespace Strand

/-- The input of a strand, as the filter that delays it names it. -/
def pad (s : Strand) : String := String.ofList ([':'].intercalate [(toString s.input).toList, ['a']])

theorem consumedBy_filters (s : Strand) : consumedBy s.filters = [s.pad] := rfl

theorem definedBy_filters (s : Strand) : definedBy s.filters = [s.label] := by
  simp [definedBy, filters]

/-- An input is no label: a colon stands in its name. -/
theorem pad_ne_labelOf (s : Strand) (k : Nat) : s.pad ≠ labelOf k := by
  intro same
  have chars := congrArg String.toList same
  rw [toList_labelOf, pad, String.toList_ofList] at chars
  have colon : ':' ∈ 'a' :: (toString k).toList := by
    rw [← chars]
    simp [List.intercalate]
  rcases List.mem_cons.1 colon with first | digit
  · exact absurd first (by decide)
  · exact absurd (isDigit_of_mem_toString digit) (by decide)

end Strand

namespace Mixdown

/-- Adds tracks one after another, each with its offset and its volume. -/
def addAll (m : Mixdown) (tracks : List (Double × Single)) : Mixdown :=
  tracks.foldl (fun m t => m.add t.1 t.2) m

/-- The labels of the delayed tracks. -/
def labels (m : Mixdown) : List String := m.strands.map Strand.label

/-- The strands are numbered in their order. -/
def Numbered (m : Mixdown) : Prop := m.strands.map Strand.input = List.range m.strands.length

/-- A mixdown whose text can be wired: the strands are numbered, no label is used twice, the text
consists of one segment for each strand and one for the mix, what is heard is read from it, and its
filters feed the labels into the mix. -/
structure Wired (m : Mixdown) : Prop where
  numbered : m.Numbered
  distinct : (m.labels ++ [mixLabel]).Nodup
  segments : m.text.toList.splitOn ';' =
    m.strands.map (fun s => s.text.toList) ++ [m.mixText.toList]
  read : graph? m.text = some (mixOf (m.strands.map Strand.heard) m.dropout)
  fed : ∃ chains, chains? m.text = some chains ∧ Feeds chains m.labels

/-! ## Adding tracks -/

/-- **Adding tracks** numbers their strands in their order. -/
theorem addAll_empty (dropout : Nat) (tracks : List (Double × Single)) :
    (empty dropout).addAll tracks =
      ⟨tracks.mapIdx fun k t => Strand.ofOffset k t.1 t.2, dropout⟩ := by
  induction tracks using List.reverseRecOn with
  | nil => rfl
  | append_singleton tracks t ih =>
      rw [addAll, List.foldl_concat, ← addAll, ih, add, nextStrand, List.mapIdx_concat,
        List.length_mapIdx]

theorem numbered_addAll (dropout : Nat) (tracks : List (Double × Single)) :
    ((empty dropout).addAll tracks).Numbered := by
  rw [addAll_empty]
  exact List.ext_getElem (by simp) fun k _ _ => by simp [Strand.ofOffset]

/-! ## Texts and what is read from them -/

theorem text_eq_text_graph (m : Mixdown) : m.text = m.graph.text := by
  have blend : m.mixText = m.graph.blend.text := by
    simp only [mixText, Blend.text, graph, List.map_map, Function.comp_def]
    rfl
  rw [text, Graph.text, blend]
  simp only [graph, List.map_map]
  rfl

/-- **Two texts are equal exactly if the same is read from them.** -/
theorem text_eq_iff {m m' : Mixdown} : m.text = m'.text ↔ m.graph = m'.graph := by
  constructor
  · intro same
    have read := m.graph?_text
    rw [same, graph?_text] at read
    exact (Option.some.inj read).symm
  · intro same
    rw [text_eq_text_graph, same, ← text_eq_text_graph]

/-- The text is cut at `;` into the descriptions of the strands and of their mix. -/
theorem splitOn_text (m : Mixdown) :
    m.text.toList.splitOn ';' = m.strands.map (fun s => s.text.toList) ++ [m.mixText.toList] := by
  rw [toList_text, splitOn_described (by simp) plain_of_mem_chains, List.map_append, List.map_map,
    List.map_singleton, List.map_singleton, List.intercalate_singleton, toList_mixText]
  exact congrArg (· ++ _) (List.map_congr_left fun s _ => s.toList_text.symm)

theorem flatMap_definedBy (m : Mixdown) :
    (m.strands.map Strand.filters ++ [[m.blendFilter]]).flatMap definedBy =
      m.labels ++ [mixLabel] := by
  rw [List.flatMap_append, List.flatMap_map]
  simp only [Strand.definedBy_filters]
  rw [← List.map_eq_flatMap]
  rfl

theorem consumedBy_blendFilter (m : Mixdown) : consumedBy [m.blendFilter] = m.labels := by
  simp [consumedBy, blendFilter, labels]

theorem flatMap_consumedBy (m : Mixdown) :
    (m.strands.map Strand.filters ++ [[m.blendFilter]]).flatMap consumedBy =
      m.strands.map Strand.pad ++ m.labels := by
  rw [List.flatMap_append, List.flatMap_map, List.flatMap_singleton, consumedBy_blendFilter]
  simp only [Strand.consumedBy_filters]
  rw [← List.map_eq_flatMap]

namespace Numbered

variable {m m' : Mixdown}

theorem labels_eq (numbered : m.Numbered) :
    m.labels = (List.range m.strands.length).map labelOf := by
  rw [← numbered, List.map_map]
  rfl

theorem nodup_labels (numbered : m.Numbered) : (m.labels ++ [mixLabel]).Nodup := by
  have distinct : m.labels.Nodup := by
    rw [numbered.labels_eq]
    exact List.nodup_range.map labelOf_injective
  refine distinct.append (List.nodup_singleton _) ?_
  rw [List.disjoint_singleton, numbered.labels_eq]
  intro member
  obtain ⟨k, _, same⟩ := List.mem_map.1 member
  exact labelOf_ne_mixLabel k same

theorem feeds (numbered : m.Numbered) :
    Feeds (m.strands.map Strand.filters ++ [[m.blendFilter]]) m.labels := by
  have distinct := numbered.nodup_labels
  have once : ∀ label ∈ m.labels, ((m.strands.map Strand.filters ++
      [[m.blendFilter]]).flatMap definedBy).count label = 1 := by
    intro label member
    rw [flatMap_definedBy]
    exact List.count_eq_one_of_mem distinct (List.mem_append_left _ member)
  refine ⟨once, fun label member => countP_of_count_flatMap (once label member), ?_, ?_⟩
  · intro label member
    have apart : label ∉ m.strands.map Strand.pad := by
      intro input
      obtain ⟨s, _, rfl⟩ := List.mem_map.1 input
      rw [numbered.labels_eq] at member
      obtain ⟨k, _, same⟩ := List.mem_map.1 member
      exact s.pad_ne_labelOf k same.symm
    rw [flatMap_consumedBy, List.count_append, List.count_eq_zero.2 apart, Nat.zero_add]
    exact List.count_eq_one_of_mem distinct.of_append_left member
  · rw [List.getLast?_concat, Option.map_some, consumedBy_blendFilter]

/-- **What is read from a numbered mixdown** follows from what is heard of its strands. -/
theorem graph_eq (numbered : m.Numbered) :
    m.graph = mixOf (m.strands.map Strand.heard) m.dropout := by
  have labels : m.strands.map Strand.label = (List.range m.strands.length).map labelOf :=
    numbered.labels_eq
  have voices : m.strands.map Strand.voice =
      (m.strands.map Strand.heard).mapIdx fun k h => ⟨k, h.1, h.1, h.2, labelOf k⟩ := by
    refine List.ext_getElem (by simp) fun k short _ => ?_
    have within : k < m.strands.length := by simpa using short
    have number : m.strands[k].input = k := by
      have numbers := List.getElem_of_eq numbered (i := k) (by simpa using within)
      simpa using numbers
    simp [Strand.voice, Strand.heard, Strand.label, labelOf, number]
  rw [graph, mixOf, voices, labels, List.length_map]

theorem wired (numbered : m.Numbered) : m.Wired where
  numbered := numbered
  distinct := numbered.nodup_labels
  segments := m.splitOn_text
  read := numbered.graph_eq ▸ m.graph?_text
  fed := ⟨_, m.chains?_text, numbered.feeds⟩

/-- **Numbered mixdowns have the same text** exactly if they agree in what is heard of their strands
and in the dropout. -/
theorem text_eq_iff (numbered : m.Numbered) (numbered' : m'.Numbered) :
    m.text = m'.text ↔
      m.strands.map Strand.heard = m'.strands.map Strand.heard ∧ m.dropout = m'.dropout := by
  rw [Mixdown.text_eq_iff]
  constructor
  · intro same
    refine ⟨?_, congrArg (fun g : Graph => g.blend.dropout) same⟩
    have voices := congrArg (fun g : Graph => g.voices.map fun v => (v.left, v.volume)) same
    simp only [graph, List.map_map] at voices
    exact voices
  · rintro ⟨heard, dropout⟩
    rw [numbered.graph_eq, numbered'.graph_eq, heard, dropout]

end Numbered

/-- **Tracks that are added one after another are wired** into a mix, with the numbers of their order
and their own delays and volumes; and the text of the mixdown tells how many they are, their delays,
the texts of their volumes and the dropout, and depends on nothing else. -/
theorem additions_wired (dropout : Nat) (tracks : List (Double × Single)) :
    let m := (empty dropout).addAll tracks
    m = ⟨tracks.mapIdx fun k t => Strand.ofOffset k t.1 t.2, dropout⟩ ∧ m.Wired ∧
      ∀ (dropout' : Nat) (tracks' : List (Double × Single)),
        let m' := (empty dropout').addAll tracks'
        m.text = m'.text ↔
          m.strands.map Strand.heard = m'.strands.map Strand.heard ∧ m.dropout = m'.dropout := by
  have numbered := numbered_addAll dropout tracks
  exact ⟨addAll_empty dropout tracks, numbered.wired,
    fun dropout' tracks' => numbered.text_eq_iff (numbered_addAll dropout' tracks')⟩

example : ((empty 2).addAll [(.nan, .infinite false), (1.5, 0.25)]).text =
    "[0:a]adelay=0|0,volume=inf[a0];[1:a]adelay=1500|1500,volume=0.25[a1];" ++
      "[a0][a1]amix=inputs=2:duration=first:dropout_transition=2[out]" := by
  decide +kernel

end Mixdown

end Slidecast.Audio
