import Slidecast.Proofs.Json.Reading

/-!
# What records are read from

The text of an object fills a record field by field: each name means a field that was not seen
before, and what stands behind it is read by the decoder of the field (`Fills`).  Such a text is
read as the record that it fills (`reads_record`), in whatever order the fields come.
-/

set_option autoImplicit false

namespace Slidecast.Json

open Document

/-- The text of a member of an object: its name, a colon and the text of its value. -/
def memberText (layout : Layout) (member : String × List Char) : List Char :=
  quote member.1 ++ ':' :: (layout.colon ++ member.2)

/-- The text of an object. -/
def objectText (layout : Layout) (members : List (String × List Char)) : List Char :=
  '{' :: layout.enclosed '}' (members.map (memberText layout))

section Fields

variable {ρ α : Type} {d : Decoder α} {text : List Char} {a : α} {name : String} {set : α → ρ → ρ}

theorem reads_field (reads : Reads d text a) : Reads (Field.of name d set).decoder text (set a) :=
  reads.map set

theorem reads_demanded (reads : Reads d text a) :
    Reads (Field.of name d set).demanded.decoder text (set a) :=
  reads.map set

end Fields

/-- Members with these names and texts fill a record: of a record with some fields seen they make
one with all that it needs. -/
inductive Fills {ρ : Type} (shape : Shape ρ) :
    List String → ρ → List (String × List Char) → ρ → Prop where
  | done {seen : List String} {value : ρ} (complete : shape.complete seen = true) :
      Fills shape seen value [] value
  | field {seen : List String} {value filled : ρ} {name : String} {text : List Char}
      {members : List (String × List Char)} {field : Field ρ} {set : ρ → ρ}
      (means : shape.fields.find? (·.answersTo name) = some field)
      (new : seen.contains field.name = false) (reads : Reads field.decoder text set)
      (fills : Fills shape (field.name :: seen) (set value) members filled) :
      Fills shape seen value ((name, text) :: members) filled

section Records

variable {ρ : Type} {shape : Shape ρ} {layout : Layout} {gap rest text : List Char} {name : String}
  {seen : List String} {value filled : ρ} {members : List (String × List Char)}

theorem memberText_append :
    memberText layout (name, text) ++ rest =
      '"' :: (name.toList.flatMap quoteChar ++
        '"' :: ':' :: (layout.colon ++ (text ++ rest))) := by
  simp [memberText, quote]

/-- A name is found behind its opening quote. -/
theorem nextName_first (blank : IsBlank gap) :
    nextName true (gap ++ '"' :: rest) = .ok (some rest) := by
  rw [nextName_append _ blank, nextName, skipSpace_cons rfl]
  rfl

theorem nextName_comma (blank : IsBlank gap) :
    nextName false (',' :: (gap ++ '"' :: rest)) = .ok (some rest) := by
  have behind : skipSpace (gap ++ '"' :: rest) = '"' :: rest := by
    rw [skipSpace_append blank, skipSpace_cons rfl]
  rw [nextName, skipSpace_cons rfl]
  split
  next empty => cases empty
  next closed => cases closed
  next same =>
    cases same
    rw [if_neg Bool.false_ne_true, if_pos rfl, behind]
    rfl

theorem members_append (fuel : Nat) (first : Bool) {cs : List Char} (blank : IsBlank gap) :
    shape.members fuel seen value first (gap ++ cs) = shape.members fuel seen value first cs := by
  cases fuel with
  | zero => rfl
  | succ fuel =>
      rw [Shape.members, nextName_append first blank, expectSign_append _ blank, Shape.members]

/-- At the end, nothing more is needed. -/
theorem members_end {fuel : Nat} {first : Bool} (complete : shape.complete seen = true) :
    shape.members (fuel + 1) seen value first ('}' :: rest) = .ok (value, rest) := by
  rw [Shape.members]
  refine bind_eq_ok.2 ⟨none, rfl, ?_⟩
  dsimp only
  rw [if_pos complete]
  rfl

/-- One member is read, and then the others. -/
theorem members_step {fuel : Nat} {first : Bool} {cs left : List Char} {field : Field ρ}
    {set : ρ → ρ}
    (next : nextName first cs = .ok (some (name.toList.flatMap quoteChar ++
      '"' :: ':' :: (layout.colon ++ (text ++ rest)))))
    (means : shape.fields.find? (·.answersTo name) = some field)
    (new : seen.contains field.name = false) (reads : Reads field.decoder text set)
    (stops : Stops rest)
    (readRest : shape.members fuel (field.name :: seen) (set value) false rest =
      .ok (filled, left)) :
    shape.members (fuel + 1) seen value first cs = .ok (filled, left) := by
  obtain ⟨after, blankAfter, read⟩ := reads layout.colon rest layout.blankColon stops
  rw [Shape.members]
  refine bind_eq_ok.2 ⟨_, next, bind_eq_ok.2 ⟨_, unquote_quoted name _, ?_⟩⟩
  dsimp only
  rw [means]
  dsimp only
  rw [new, if_neg Bool.false_ne_true]
  refine bind_eq_ok.2 ⟨_, expectSign_sign rfl, bind_eq_ok.2 ⟨_, read, ?_⟩⟩
  exact (members_append fuel false blankAfter).trans readRest

theorem stops_objectEnd : Stops ['}'] := ⟨rfl, rfl⟩

/-- The members behind the first one are read. -/
theorem members_others (layout : Layout) (rest : List Char)
    (fills : Fills shape seen value members filled) {fuel : Nat} (enough : members.length < fuel) :
    shape.members fuel seen value false
      (layout.others '}' (members.map (memberText layout)) rest) = .ok (filled, rest) := by
  induction fills generalizing fuel with
  | done complete =>
      obtain ⟨fuel, rfl⟩ := Nat.exists_eq_add_one_of_ne_zero (Nat.ne_of_gt enough)
      exact (members_append _ _ layout.blankOuter).trans (members_end complete)
  | @field seen value filled name text members field set means new reads fills ih =>
      obtain ⟨fuel, rfl⟩ := Nat.exists_eq_add_one_of_ne_zero (Nat.ne_zero_of_lt enough)
      rw [List.map_cons, Layout.others_cons, memberText_append]
      exact members_step (nextName_comma layout.blankInner) means new reads
        (Layout.stops_others stops_objectEnd) (ih (Nat.lt_of_succ_lt_succ enough))

/-- **A record** is read from the texts of its members. -/
theorem reads_record (fills : Fills shape [] shape.blank members filled) :
    Reads shape.decoder (objectText layout members) filled := by
  intro before rest blankBefore stops
  refine ⟨[], isBlank_nil, ?_⟩
  rw [Shape.decoder, skipSpace_append blankBefore, objectText, List.cons_append,
    skipSpace_cons rfl]
  have enough := layout.length_lt_enclosed '}' (members.map (memberText layout)) rest
  rw [List.length_map] at enough
  cases fills with
  | done complete =>
      rw [List.map_nil, Layout.enclosed_nil]
      exact (members_append _ _ layout.blankInner).trans
        ((members_append _ _ layout.blankOuter).trans (members_end complete))
  | @field _ _ _ name text members field set means new reads fills =>
      have readRest := members_others layout rest fills (Nat.lt_of_succ_lt_succ enough)
      rw [List.map_cons, Layout.enclosed_cons, memberText_append] at readRest ⊢
      exact members_step (nextName_first layout.blankInner) means new reads
        (Layout.stops_others stops_objectEnd) readRest

end Records

/-! ## How documents are written -/

section Documents

variable {elements : List Document} {members : List (String × Document)} {level : Nat}

theorem compactChars_list :
    compactChars (.list elements) = listText .line (elements.map compactChars) := by
  have parts : ∀ elements, compactElements elements = elements.map compactChars := by
    intro elements
    induction elements with
    | nil => rfl
    | cons element elements ih => rw [compactElements, ih, List.map_cons]
  rw [compactChars, parts]
  rfl

theorem compactChars_object :
    compactChars (.object members) =
      objectText .line (members.map fun m => (m.1, compactChars m.2)) := by
  have parts : ∀ members, compactMembers members =
      (members.map fun m => (m.1, compactChars m.2)).map (memberText .line) := by
    intro members
    induction members with
    | nil => rfl
    | cons member members ih =>
        rw [compactMembers, ih, List.map_cons, List.map_cons]
        rfl
  rw [compactChars, parts]
  rfl

theorem prettyChars_list (nonempty : elements ≠ []) :
    prettyChars level (.list elements) =
      listText (.lines level) (elements.map (prettyChars (level + 1))) := by
  have parts : ∀ elements, prettyElements (level + 1) elements =
      elements.map (prettyChars (level + 1)) := by
    intro elements
    induction elements with
    | nil => rfl
    | cons element elements ih => rw [prettyElements, ih, List.map_cons]
  rw [prettyChars, parts]
  · simp [listText, Layout.enclosed, Layout.lines]
  · exact nonempty

theorem prettyChars_object (nonempty : members ≠ []) :
    prettyChars level (.object members) =
      objectText (.lines level) (members.map fun m => (m.1, prettyChars (level + 1) m.2)) := by
  have parts : ∀ members, prettyMembers (level + 1) members =
      (members.map fun m => (m.1, prettyChars (level + 1) m.2)).map
        (memberText (.lines level)) := by
    intro members
    induction members with
    | nil => rfl
    | cons member members ih =>
        rw [prettyMembers, ih, List.map_cons, List.map_cons]
        rfl
  rw [prettyChars, parts]
  · simp [objectText, Layout.enclosed, Layout.lines]
  · exact nonempty

/-- A list is read from its text with one element to a line. -/
theorem reads_prettyList {α : Type} {d : Decoder α} {as : List α}
    (opens : ∀ element ∈ elements, Opens (prettyChars (level + 1) element))
    (reads : List.Forall₂ (Reads d) (elements.map (prettyChars (level + 1))) as) :
    Reads (list d) (prettyChars level (.list elements)) as := by
  cases elements with
  | nil =>
      have empty : prettyChars level (.list []) = listText .line [] := rfl
      rw [empty]
      exact reads_list (fun _ absent => absurd absent List.not_mem_nil) reads
  | cons element elements =>
      rw [prettyChars_list (List.cons_ne_nil _ _)]
      refine reads_list (fun text member => ?_) reads
      obtain ⟨one, among, rfl⟩ := List.mem_map.1 member
      exact opens one among

end Documents

end Slidecast.Json
