import Slidecast.Proofs.Files.Paths
import Slidecast.Proofs.Files.Walk
import Slidecast.Proofs.Text.Utf8

/-!
# What paths are shown as

A path that is made from a text is shown as this text (`shown_ofText`), and these are the paths that
their shown texts name (`isText_iff`).  Any other path is shown as a text that names another
one: the two have the same separators, and between them each segment is what the segment of the
first is shown as (`segments_asShown`).
-/

set_option autoImplicit false

namespace Slidecast

namespace Text

/-! ## Texts -/

/-- A text all of whose characters are bytes by themselves. -/
def IsPlainText (text : String) : Prop := ∀ c ∈ text.toList, IsPlain c

instance : DecidablePred IsPlainText := fun text => List.decidableBAll IsPlain text.toList

theorem shown_kept (text : String) : shown (kept text) = text := by
  simp [shown, kept, ofUtf8_utf8Of]

theorem kept_of_isPlainText {text : String} (plain : IsPlainText text) : kept text = text := by
  simp [kept, utf8Of_of_plain plain]

theorem shown_of_isPlainText {text : String} (plain : IsPlainText text) : shown text = text := by
  simp [shown, ofUtf8_of_plain plain]

theorem isPlain_slash : IsPlain '/' := by decide

theorem isPrinted_slash : IsPrinted '/' := by decide

theorem slash_mem_kept_iff {text : String} : '/' ∈ (kept text).toList ↔ '/' ∈ text.toList := by
  rw [kept, String.toList_ofList]
  constructor
  · exact mem_of_mem_utf8Of isPlain_slash
  · intro member
    obtain ⟨front, back, split⟩ := List.append_of_mem member
    rw [split, utf8Of_append_cons isPlain_slash]
    exact List.mem_append_right _ List.mem_cons_self

theorem slash_notMem_shown {name : String} (absent : '/' ∉ name.toList) :
    '/' ∉ (shown name).toList := by
  rw [shown, String.toList_ofList]
  exact fun member => absent (mem_of_mem_ofUtf8 isPrinted_slash member)

/-- A plain character in front stays there. -/
theorem head?_kept {text : String} {c : Char} (first : text.toList.head? = some c)
    (plain : IsPlain c) : (kept text).toList.head? = some c := by
  rw [kept, String.toList_ofList]
  cases cs : text.toList with
  | nil => simp [cs] at first
  | cons other rest =>
      rw [cs, List.head?_cons] at first
      rw [Option.some.inj first, utf8Of_cons plain, List.head?_cons]

end Text

namespace Path

open Text

theorem shown_ofText (text : String) : (ofText text).shown = text := shown_kept text

/-- The bytes of a path are those of a text exactly if some text names the path. -/
theorem isText_iff {p : Path} : p.IsText ↔ ∃ text, p = ofText text := by
  constructor
  · intro same
    exact ⟨p.shown, same.symm⟩
  · rintro ⟨text, rfl⟩
    rw [IsText, asShown, shown_ofText]

/-! ## The path that the shown text names -/

/-- What bytes are read as, written as bytes again. -/
def again (cs : List Char) : List Char := utf8Of (ofUtf8 cs)

theorem text_asShown (p : Path) : p.asShown.text.toList = again p.text.toList := by
  simp [asShown, ofText, shown, kept, Text.shown, again]

theorem again_append_cons (front back : List Char) :
    again (front ++ '/' :: back) = again front ++ '/' :: again back := by
  rw [again, ofUtf8_append_cons isPlain_slash, utf8Of_append_cons isPlain_slash]
  rfl

theorem slash_notMem_again {cs : List Char} (absent : '/' ∉ cs) : '/' ∉ again cs :=
  fun member => absent (mem_of_mem_ofUtf8 isPrinted_slash (mem_of_mem_utf8Of isPlain_slash member))

theorem again_eq_nil_iff {cs : List Char} : again cs = [] ↔ cs = [] := by
  constructor
  · intro nothing
    have read := ofUtf8_utf8Of (ofUtf8 cs)
    rw [show utf8Of (ofUtf8 cs) = [] from nothing] at read
    exact ofUtf8_eq_nil_iff.1 read.symm
  · rintro rfl
    rfl

/-- Pieces between separators are read and written apart. -/
theorem cutAtSlash_again (cs : List Char) : cutAtSlash (again cs) = (cutAtSlash cs).map again := by
  by_cases slash : '/' ∈ cs
  · obtain ⟨front, back, split, absent⟩ := List.eq_append_cons_of_mem slash
    have shorter : back.length < cs.length := by
      rw [split]
      simp
      omega
    rw [split, again_append_cons, cutAtSlash_append, cutAtSlash_append, cutAtSlash_again back,
      cutAtSlash_of_notMem absent, cutAtSlash_of_notMem (slash_notMem_again absent)]
    rfl
  · rw [cutAtSlash_of_notMem slash, cutAtSlash_of_notMem (slash_notMem_again slash)]
    rfl
termination_by cs.length

/-- **The segments of the path that a shown text names** are what the segments of the path are shown
as. -/
theorem segments_asShown (p : Path) :
    p.asShown.segments = p.segments.map fun segment => kept (Text.shown segment) := by
  rw [segments, segments, text_asShown, cutAtSlash_again, List.filter_map, List.map_map,
    List.map_map]
  have same : (fun cs : List Char => decide (cs ≠ [])) ∘ again = fun cs => decide (cs ≠ []) := by
    funext cs
    simp only [Function.comp_apply, ne_eq, again_eq_nil_iff]
  rw [same]
  refine List.map_congr_left fun cs _ => ?_
  simp [again, kept, Text.shown]

theorem isAbsolute_asShown {p : Path} (absolute : p.isAbsolute = true) :
    p.asShown.isAbsolute = true := by
  rw [isAbsolute, text_asShown]
  rw [isAbsolute] at absolute
  cases cs : p.text.toList with
  | nil => simp [cs] at absolute
  | cons c rest =>
      have slash : c = '/' := by simpa [cs] using absolute
      have split := again_append_cons [] rest
      rw [List.nil_append] at split
      rw [slash, split]
      rfl

end Path

end Slidecast
