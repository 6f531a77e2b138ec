import Slidecast.Audio.Mixdown
import Slidecast.Proofs.Number.Places

/-!
# Reading mixdowns

The description of a mixdown is read by one who knows only how descriptions are written: `;` stands
between chains of filters and `,` between the filters of a chain; a filter has a name, settings
between `:`, and labels in brackets in front of the name and behind the settings.  Whatever filters
are described, they are read as they were (`chains?_described`).

What the filters of a mixdown do is read off them: which input is delayed by how much and how loud
it is heard, and which labels are mixed (`graph?_text`).
-/

set_option autoImplicit false

namespace Slidecast.Audio

open Number

/-! ## Filters -/

/-- A filter: the labels that it consumes, its name, its settings, and the labels that it defines. -/
structure Filter where
  consumes : List (List Char)
  name : List Char
  settings : List (List Char)
  defines : List (List Char)
  deriving DecidableEq

/-- The labels at the beginning of a row of characters, and what follows them, outside of brackets
or behind the characters of a label, last one first. -/
def labels? : Option (List Char) → List Char → Option (List (List Char) × List Char)
  | none, '[' :: cs => labels? (some []) cs
  | none, cs => some ([], cs)
  | some label, ']' :: cs =>
      (labels? none cs).map fun (others, rest) => (label.reverse :: others, rest)
  | some label, c :: cs => labels? (some (c :: label)) cs
  | some _, [] => none

/-- The filter that a row of characters describes. -/
def filter? (cs : List Char) : Option Filter := do
  let (consumes, rest) ← labels? none cs
  let body := rest.takeWhile (· ≠ '[')
  let (defines, last) ← labels? none (rest.dropWhile (· ≠ '['))
  guard (last = [])
  let name := body.takeWhile (· ≠ '=')
  match body.dropWhile (· ≠ '=') with
  | [] => some ⟨consumes, name, [], defines⟩
  | _ :: settings => some ⟨consumes, name, settings.splitOn ':', defines⟩

/-- The chains of filters that a text describes. -/
def chains? (text : String) : Option (List (List Filter)) :=
  (text.toList.splitOn ';').mapM fun chain => (chain.splitOn ',').mapM filter?

/-! ## Descriptions -/

/-- No character of a row is one of the marks. -/
def Free (marks : String) (cs : List Char) : Prop := ∀ c ∈ cs, c ∉ marks.toList

instance (marks : String) (cs : List Char) : Decidable (Free marks cs) :=
  List.decidableBAll (fun c => c ∉ marks.toList) cs

theorem Free.append {marks : String} {cs cs' : List Char} (first : Free marks cs)
    (second : Free marks cs') : Free marks (cs ++ cs') := by
  intro c member
  exact (List.mem_append.1 member).elim (first c) (second c)

theorem Free.mono {marks fewer : String} {cs : List Char} (free : Free marks cs)
    (within : fewer.toList ⊆ marks.toList) : Free fewer cs :=
  fun c member mark => free c member (within mark)

theorem Free.intercalate {marks : String} {mark : Char} {rows : List (List Char)}
    (other : mark ∉ marks.toList) (all : ∀ row ∈ rows, Free marks row) :
    Free marks ([mark].intercalate rows) := by
  induction rows with
  | nil => exact fun c member => nomatch member
  | cons row rows ih =>
      have first : Free marks row := all row List.mem_cons_self
      have rest := ih fun row' member => all row' (List.mem_cons_of_mem row member)
      cases rows with
      | nil => simpa using first
      | cons row' rows =>
          rw [List.intercalate_cons_cons]
          refine (first.append fun c member => ?_).append rest
          rw [List.mem_singleton.1 member]
          exact other

theorem Free.notMem {marks : String} {mark : Char} {cs : List Char} (free : Free marks cs)
    (isMark : mark ∈ marks.toList) : mark ∉ cs :=
  fun member => free mark member isMark

/-- A label in brackets. -/
def bracketed (label : List Char) : List Char := '[' :: label ++ [']']

namespace Filter

/-- The name of a filter and its settings. -/
def body (filter : Filter) : List Char :=
  match filter.settings with
  | [] => filter.name
  | settings => filter.name ++ '=' :: [':'].intercalate settings

/-- The description of a filter. -/
def text (filter : Filter) : List Char :=
  filter.consumes.flatMap bracketed ++ filter.body ++ filter.defines.flatMap bracketed

/-- A filter whose parts hold no marks that separate parts. -/
structure Plain (filter : Filter) : Prop where
  named : filter.name ≠ []
  name : Free "[],;=" filter.name
  settings : ∀ setting ∈ filter.settings, Free "[],;:" setting
  consumes : ∀ label ∈ filter.consumes, Free "[],;" label
  defines : ∀ label ∈ filter.defines, Free "[],;" label

variable {filter : Filter}

theorem Plain.free_body (plain : filter.Plain) : Free "[],;" filter.body := by
  have name : Free "[],;" filter.name := plain.name.mono (by decide)
  unfold Filter.body
  split
  · exact name
  · have settings : Free "[],;" ([':'].intercalate filter.settings) :=
      .intercalate (by decide) fun setting member =>
        (plain.settings setting member).mono (by decide)
    refine name.append fun c member => ?_
    rcases List.mem_cons.1 member with rfl | inside
    · decide
    · exact settings c inside

/-- The name is not taken for a label. -/
theorem Plain.head?_body (plain : filter.Plain) (behind : List Char) :
    (filter.body ++ behind).head? ≠ some '[' := by
  obtain ⟨c, cs, split⟩ := List.exists_cons_of_ne_nil plain.named
  have first : (filter.body ++ behind).head? = some c := by
    unfold body
    split <;> simp [split]
  rw [first]
  rintro ⟨rfl⟩
  exact plain.name '[' (split ▸ List.mem_cons_self) (by decide)

theorem free_bracketed {marks : String} {labels : List (List Char)}
    (opening : '[' ∉ marks.toList) (closing : ']' ∉ marks.toList)
    (free : ∀ label ∈ labels, Free marks label) : Free marks (labels.flatMap bracketed) := by
  intro c member
  obtain ⟨label, within, member⟩ := List.mem_flatMap.1 member
  rcases List.mem_append.1 member with front | last
  · rcases List.mem_cons.1 front with rfl | inside
    · exact opening
    · exact free label within c inside
  · rw [List.mem_singleton.1 last]
    exact closing

/-- No filter is cut in two. -/
theorem Plain.free_text (plain : filter.Plain) : Free ",;" filter.text := by
  have consumes : Free ",;" (filter.consumes.flatMap bracketed) :=
    free_bracketed (by decide) (by decide) fun label member =>
      (plain.consumes label member).mono (by decide)
  have defines : Free ",;" (filter.defines.flatMap bracketed) :=
    free_bracketed (by decide) (by decide) fun label member =>
      (plain.defines label member).mono (by decide)
  exact (consumes.append (plain.free_body.mono (by decide))).append defines

end Filter

/-! ## Reading filters back -/

/-- The rest of a label, and what follows it. -/
theorem labels?_inside {label : List Char} (front cs : List Char) (closed : ']' ∉ label) :
    labels? (some front) (label ++ ']' :: cs) =
      (labels? none cs).map fun (others, rest) => ((front.reverse ++ label) :: others, rest) := by
  induction label generalizing front with
  | nil => simp [labels?]
  | cons c label ih =>
      have other : c ≠ ']' := by
        rintro rfl
        exact closed List.mem_cons_self
      rw [List.cons_append, labels?.eq_4 _ _ _ (by simpa using other)]
      rw [ih (c :: front) fun member => closed (List.mem_cons_of_mem c member)]
      simp

theorem labels?_bracketed {labels : List (List Char)} {rest : List Char}
    (closed : ∀ label ∈ labels, ']' ∉ label) (ends : rest.head? ≠ some '[') :
    labels? none (labels.flatMap bracketed ++ rest) = some (labels, rest) := by
  induction labels with
  | nil =>
      cases rest with
      | nil => rfl
      | cons c cs =>
          have other : c ≠ '[' := fun same => ends (congrArg some same)
          exact labels?.eq_2 _ fun cs' same => other (List.cons.inj same).1
  | cons label labels ih =>
      have read := ih fun label' member => closed label' (List.mem_cons_of_mem label member)
      rw [List.flatMap_cons, bracketed]
      simp only [List.cons_append, List.append_assoc, List.nil_append]
      rw [labels?, labels?_inside [] _ (closed label List.mem_cons_self), read]
      rfl

/-- **A filter is read back from its description.** -/
theorem filter?_text {filter : Filter} (plain : filter.Plain) :
    filter? filter.text = some filter := by
  have closed : ∀ label, Free "[],;" label → ']' ∉ label :=
    fun label free => free.notMem (by decide)
  have first : labels? none filter.text =
      some (filter.consumes, filter.body ++ filter.defines.flatMap bracketed) := by
    rw [Filter.text, List.append_assoc]
    exact labels?_bracketed (fun label member => closed label (plain.consumes label member))
      (plain.head?_body _)
  have last : labels? none (filter.defines.flatMap bracketed) = some (filter.defines, []) := by
    rw [← List.append_nil (filter.defines.flatMap bracketed)]
    exact labels?_bracketed (fun label member => closed label (plain.defines label member)) nofun
  have opening : ∀ c ∈ (filter.defines.flatMap bracketed).head?, decide (c ≠ '[') = false := by
    cases filter.defines with
    | nil => exact fun c absent => nomatch absent
    | cons label labels =>
        rintro c ⟨rfl⟩
        rfl
  have outside : ∀ c ∈ filter.body, decide (c ≠ '[') = true := by
    intro c member
    refine decide_eq_true fun same => ?_
    exact plain.free_body.notMem (by decide) (same ▸ member)
  obtain ⟨taken, dropped⟩ := span_append _ outside opening
  obtain ⟨named, set⟩ : (filter.body.takeWhile (· ≠ '=')) = filter.name ∧
      filter.body.dropWhile (· ≠ '=') =
        match filter.settings with
        | [] => []
        | settings => '=' :: [':'].intercalate settings := by
    have inside : ∀ c ∈ filter.name, decide (c ≠ '=') = true := by
      intro c member
      refine decide_eq_true fun same => ?_
      exact plain.name.notMem (by decide) (same ▸ member)
    unfold Filter.body
    split
    · have whole := span_append [] inside (fun c absent => nomatch absent)
      rwa [List.append_nil] at whole
    · refine span_append _ inside ?_
      rintro c ⟨rfl⟩
      rfl
  unfold filter?
  rw [first]
  simp only [Option.bind_eq_bind, Option.bind_some, taken, dropped, last, named, set]
  have separate : ∀ setting ∈ filter.settings, ':' ∉ setting :=
    fun setting member => (plain.settings setting member).notMem (by decide)
  obtain ⟨consumes, name, settings, defines⟩ := filter
  cases settings with
  | nil => rfl
  | cons setting settings =>
      have split := List.splitOn_intercalate ':' separate (List.cons_ne_nil setting settings)
      simp [split]

/-- The description of chains of filters. -/
def described (chains : List (List Filter)) : List Char :=
  [';'].intercalate (chains.map fun chain => [','].intercalate (chain.map Filter.text))

theorem mapM_map_eq_some {α β γ : Type} {write : α → β} {read : β → Option γ} {value : α → γ}
    {rows : List α} (reads : ∀ a ∈ rows, read (write a) = some (value a)) :
    (rows.map write).mapM read = some (rows.map value) := by
  induction rows with
  | nil => rfl
  | cons a rows ih =>
      rw [List.map_cons, List.mapM_cons, reads a List.mem_cons_self,
        ih fun b member => reads b (List.mem_cons_of_mem a member)]
      rfl

/-- Chains are found between the marks that separate them. -/
theorem splitOn_described {chains : List (List Filter)} (filled : chains ≠ [])
    (plain : ∀ chain ∈ chains, ∀ filter ∈ chain, filter.Plain) :
    (described chains).splitOn ';' =
      chains.map fun chain => [','].intercalate (chain.map Filter.text) := by
  refine List.splitOn_intercalate ';' ?_ (by simpa using filled)
  intro row member
  obtain ⟨chain, within, rfl⟩ := List.mem_map.1 member
  have free : Free ";" ([','].intercalate (chain.map Filter.text)) := by
    refine .intercalate (by decide) fun text member => ?_
    obtain ⟨filter, inside, rfl⟩ := List.mem_map.1 member
    exact (plain chain within filter inside).free_text.mono (by decide)
  exact free.notMem (by decide)

/-- **Filters are read as they were described.** -/
theorem chains?_described {text : String} {chains : List (List Filter)}
    (describes : text.toList = described chains) (filled : chains ≠ [])
    (each : ∀ chain ∈ chains, chain ≠ [])
    (plain : ∀ chain ∈ chains, ∀ filter ∈ chain, filter.Plain) : chains? text = some chains := by
  rw [chains?, describes, splitOn_described filled plain]
  refine (mapM_map_eq_some fun chain within => ?_).trans (congrArg some (List.map_id chains))
  have parts : ∀ row ∈ chain.map Filter.text, ',' ∉ row := by
    intro row member
    obtain ⟨filter, inside, rfl⟩ := List.mem_map.1 member
    exact (plain chain within filter inside).free_text.notMem (by decide)
  rw [List.splitOn_intercalate ',' parts (by simpa using each chain within)]
  exact (mapM_map_eq_some fun filter inside => filter?_text (plain chain within filter inside)).trans
    (congrArg some (List.map_id chain))

/-! ## What the filters of a mixdown do -/

/-- One track of a mix: its input, the delays of its two channels, the text of its volume, and the
label under which it is mixed. -/
structure Voice where
  input : Nat
  left : Nat
  right : Nat
  volume : String
  label : String
  deriving DecidableEq

/-- What is mixed: the labels, how many inputs are expected, which of them ends the mix, for how
many seconds the others are faded in, and the label of the mix. -/
structure Blend where
  consumes : List String
  count : Nat
  ends : String
  dropout : Nat
  defines : String
  deriving DecidableEq

/-- What a description tells. -/
structure Graph where
  voices : List Voice
  blend : Blend
  deriving DecidableEq

/-- The natural number that a row of digits stands for. -/
def natural? (cs : List Char) : Option Nat :=
  if cs ≠ [] ∧ cs.all Char.isDigit = true then some (ofDigits cs) else none

/-- The value of a setting with a key. -/
def setting? (key : String) (cs : List Char) : Option (List Char) :=
  cs.dropPrefix? (key.toList ++ ['='])

/-- The sound of an input is delayed, and its volume is changed. -/
def voice? : List Filter → Option Voice
  | [⟨[pad], delay, [delays], []⟩, ⟨[], loudness, [volume], [label]⟩] => do
      guard (delay = "adelay".toList ∧ loudness = "volume".toList)
      match pad.splitOn ':', delays.splitOn '|' with
      | [input, ['a']], [left, right] =>
          some
            { input := ← natural? input
              left := ← natural? left
              right := ← natural? right
              volume := String.ofList volume
              label := String.ofList label }
      | _, _ => none
  | _ => none

/-- Labels are mixed. -/
def blend? : List Filter → Option Blend
  | [⟨labels, mix, [count, ends, dropout], [label]⟩] => do
      guard (mix = "amix".toList)
      some
        { consumes := labels.map String.ofList
          count := ← (setting? "inputs" count).bind natural?
          ends := String.ofList (← setting? "duration" ends)
          dropout := ← (setting? "dropout_transition" dropout).bind natural?
          defines := String.ofList label }
  | _ => none

/-- What a text describes: tracks one by one, and then the mix. -/
def graph? (text : String) : Option Graph := do
  let chains ← chains? text
  let blend ← blend? (← chains.getLast?)
  some ⟨← chains.dropLast.mapM voice?, blend⟩

/-! ## Reading mixdowns back -/

theorem natural?_toString (n : Nat) : natural? (toString n).toList = some n := by
  have filled : (toString n).toList ≠ [] := by simp
  rw [natural?, if_pos ⟨filled, all_isDigit_toString n⟩, ofDigits_toString]

theorem setting?_append (key : String) (value : List Char) :
    setting? key (key.toList ++ '=' :: value) = some value := by
  have split : key.toList ++ '=' :: value = key.toList ++ ['='] ++ value := by simp
  rw [setting?, split, List.dropPrefix?_append_of_beq _ (by simp)]

theorem free_toString {marks : String} (n : Nat)
    (others : marks.toList.any Char.isDigit = false) : Free marks (toString n).toList := by
  intro c member mark
  exact List.any_eq_false.1 others c mark (isDigit_of_mem_toString member)

theorem free_plain {f : Format} {marks : String} (x : Binary f)
    (others : marks.toList.any (fun c => decide (IsOfFixed c)) = false) :
    Free marks x.plain.toList := by
  intro c member mark
  exact List.any_eq_false.1 others c mark (decide_eq_true (mem_plain member))

theorem free_setting {key : String} (n : Nat) (free : Free "[],;:" key.toList) :
    Free "[],;:" (key.toList ++ '=' :: (toString n).toList) := by
  have value : Free "[],;:" (['='] ++ (toString n).toList) :=
    .append (by decide) (free_toString n (by decide))
  exact free.append value

theorem free_label (s : Strand) : Free "[],;" s.label.toList := by
  rw [Strand.label, String.toList_append]
  exact Free.append (by decide) (free_toString s.input (by decide))

namespace Strand

/-- The filters that a strand describes. -/
def filters (s : Strand) : List Filter :=
  let delay := (toString s.delay).toList
  [ { consumes := [[':'].intercalate [(toString s.input).toList, ['a']]]
      name := "adelay".toList
      settings := [['|'].intercalate [delay, delay]]
      defines := [] },
    { consumes := []
      name := "volume".toList
      settings := [s.volume.plain.toList]
      defines := [s.label.toList] } ]

/-- What the strand does to its track. -/
def voice (s : Strand) : Voice := ⟨s.input, s.delay, s.delay, s.volume.plain, s.label⟩

theorem toList_text (s : Strand) :
    s.text.toList = [','].intercalate (s.filters.map Filter.text) := by
  simp [text, filters, Filter.text, Filter.body, bracketed, List.intercalate, List.intersperse]

theorem plain_of_mem_filters {s : Strand} {filter : Filter} (member : filter ∈ s.filters) :
    filter.Plain := by
  have input : Free "[],;" (toString s.input).toList := free_toString s.input (by decide)
  have delay : Free "[],;:" (toString s.delay).toList := free_toString s.delay (by decide)
  have volume : Free "[],;:" s.volume.plain.toList := free_plain s.volume (by decide)
  rcases List.mem_cons.1 member with rfl | member
  · have name : Free "[],;=" "adelay".toList := by decide
    refine ⟨by simp, name, ?_, ?_, nofun⟩
    · simp only [List.forall_mem_singleton]
      refine .intercalate (by decide) ?_
      simp only [List.forall_mem_cons]
      exact ⟨delay, delay, nofun⟩
    · simp only [List.forall_mem_singleton]
      refine .intercalate (by decide) ?_
      simp only [List.forall_mem_cons]
      exact ⟨input, by decide, nofun⟩
  · have name : Free "[],;=" "volume".toList := by decide
    rw [List.mem_singleton.1 member]
    refine ⟨by simp, name, ?_, nofun, ?_⟩
    · simpa using volume
    · simpa using free_label s

/-- **A strand is read back.** -/
theorem voice?_filters (s : Strand) : voice? s.filters = some s.voice := by
  have input : Free ":|" (toString s.input).toList := free_toString s.input (by decide)
  have delay : Free ":|" (toString s.delay).toList := free_toString s.delay (by decide)
  have pad : ([':'].intercalate [(toString s.input).toList, ['a']]).splitOn ':' =
      [(toString s.input).toList, ['a']] := by
    refine List.splitOn_intercalate ':' ?_ (List.cons_ne_nil _ _)
    simp only [List.forall_mem_cons]
    exact ⟨input.notMem (by decide), by decide, nofun⟩
  have delays : (['|'].intercalate [(toString s.delay).toList, (toString s.delay).toList]).splitOn
      '|' = [(toString s.delay).toList, (toString s.delay).toList] := by
    refine List.splitOn_intercalate '|' ?_ (List.cons_ne_nil _ _)
    simp only [List.forall_mem_cons]
    exact ⟨delay.notMem (by decide), delay.notMem (by decide), nofun⟩
  simp only [filters, voice?]
  rw [pad, delays]
  simp only [natural?_toString]
  simp [voice, guard]

end Strand

namespace Mixdown

/-- The filter that mixes the labels. -/
def blendFilter (m : Mixdown) : Filter where
  consumes := m.strands.map fun s => s.label.toList
  name := "amix".toList
  settings :=
    [ "inputs".toList ++ '=' :: (toString m.strands.length).toList,
      "duration".toList ++ '=' :: "first".toList,
      "dropout_transition".toList ++ '=' :: (toString m.dropout).toList ]
  defines := [mixLabel.toList]

/-- What the mixdown is. -/
def graph (m : Mixdown) : Graph where
  voices := m.strands.map Strand.voice
  blend :=
    { consumes := m.strands.map Strand.label
      count := m.strands.length
      ends := "first"
      dropout := m.dropout
      defines := mixLabel }

theorem toList_mixText (m : Mixdown) : m.mixText.toList = m.blendFilter.text := by
  simp [mixText, blendFilter, Filter.text, Filter.body, bracketed, List.intercalate,
    List.intersperse]
  rw [List.flatMap_map, List.flatMap_map]
  exact List.flatMap_congr fun s _ => by simp [bracketed]

theorem plain_blendFilter (m : Mixdown) : m.blendFilter.Plain where
  named := by simp [blendFilter]
  name := by
    have name : Free "[],;=" "amix".toList := by decide
    exact name
  settings := by
    simp only [blendFilter, List.forall_mem_cons]
    exact ⟨free_setting _ (by decide), by decide, free_setting _ (by decide), nofun⟩
  consumes := by
    intro label member
    obtain ⟨s, _, rfl⟩ := List.mem_map.1 member
    exact free_label s
  defines := by
    simp only [blendFilter, List.forall_mem_singleton]
    decide

theorem blend?_blendFilter (m : Mixdown) : blend? [m.blendFilter] = some m.graph.blend := by
  simp only [blendFilter, blend?, setting?_append, natural?_toString, Option.bind_some]
  simp [graph, guard]

theorem toList_text (m : Mixdown) :
    m.text.toList = described (m.strands.map Strand.filters ++ [[m.blendFilter]]) := by
  have strands : m.strands.map (String.toList ∘ Strand.text) =
      m.strands.map ((fun chain => [','].intercalate (chain.map Filter.text)) ∘ Strand.filters) :=
    List.map_congr_left fun s _ => s.toList_text
  rw [text, String.toList_intercalate, described, List.map_append, List.map_append, List.map_map,
    List.map_map, strands, List.map_singleton, List.map_singleton, List.map_singleton,
    List.intercalate_singleton, toList_mixText]
  rfl

theorem plain_of_mem_chains {m : Mixdown} :
    ∀ chain ∈ m.strands.map Strand.filters ++ [[m.blendFilter]], ∀ filter ∈ chain,
      filter.Plain := by
  intro chain member filter inside
  rcases List.mem_append.1 member with voice | blend
  · obtain ⟨s, _, rfl⟩ := List.mem_map.1 voice
    exact Strand.plain_of_mem_filters inside
  · rw [List.mem_singleton.1 blend] at inside
    rw [List.mem_singleton.1 inside]
    exact m.plain_blendFilter

theorem chains?_text (m : Mixdown) :
    chains? m.text = some (m.strands.map Strand.filters ++ [[m.blendFilter]]) := by
  refine chains?_described m.toList_text (by simp) ?_ plain_of_mem_chains
  intro chain member
  rcases List.mem_append.1 member with voice | blend
  · obtain ⟨s, _, rfl⟩ := List.mem_map.1 voice
    exact List.cons_ne_nil _ _
  · rw [List.mem_singleton.1 blend]
    exact List.cons_ne_nil _ _

/-- **A mixdown is read back from its text.** -/
theorem graph?_text (m : Mixdown) : graph? m.text = some m.graph := by
  have voices : (m.strands.map Strand.filters).mapM voice? = some (m.strands.map Strand.voice) :=
    mapM_map_eq_some fun s _ => s.voice?_filters
  rw [graph?, chains?_text]
  simp only [Option.bind_eq_bind, Option.bind_some, List.getLast?_concat, List.dropLast_concat]
  rw [blend?_blendFilter, voices]
  rfl

example : graph? ("[0:a]adelay=250|250,volume=0.5[a0];" ++
    "[a0]amix=inputs=1:duration=first:dropout_transition=2[out]") =
      some ⟨[⟨0, 250, 250, "0.5", "a0"⟩], ⟨["a0"], 1, "first", 2, "out"⟩⟩ := by
  decide +kernel

end Mixdown

end Slidecast.Audio
