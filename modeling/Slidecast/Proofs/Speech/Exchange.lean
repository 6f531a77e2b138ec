import Slidecast.Speech.Exchange
import Slidecast.Proofs.Speech.Offence
import Slidecast.Proofs.Json.Record
import Slidecast.Proofs.Json.Digits

/-!
# Transcripts in JSON texts

A transcript that is written, on one line or on several, is read back if its times are: the texts of
its words are, whatever they hold (`ofText_faithful`).  Times with few digits are read back
(`ofText_document_of_hasFewDigits`).  And no text is a way around
`Transcript.ofWords`: a text gives a transcript exactly if it is a text with its words, so the words
of a transcript that was read are in order like all others, and words that are not in order are
refused for the reason that `Transcript.ofWords` gives.
-/

set_option autoImplicit false

namespace Slidecast.Speech

open Number Json Document

section Texts

variable {layout whole list : Layout} {w : Word} {t : Transcript}

/-! ## Texts of words -/

/-- The text of a word. -/
def wordText (layout : Layout) (w : Word) : List Char :=
  objectText layout
    [ ("word", quote w.text), ("start", numberText doubleNotation w.start),
      ("end", numberText doubleNotation w.stop) ]

theorem reads_word (start : ReadsBack w.start) (stop : ReadsBack w.stop) :
    Reads Word.shape.decoder (wordText layout w) w := by
  refine reads_record ?_
  refine .field rfl rfl (reads_demanded (reads_string w.text)) ?_
  refine .field rfl rfl (reads_demanded (reads_double start)) ?_
  refine .field rfl rfl (reads_demanded (reads_double stop)) ?_
  exact .done rfl

theorem opens_wordText : Opens (wordText layout w) := ⟨'{', _, rfl, rfl, by decide⟩

theorem compactChars_word (w : Word) : compactChars w.document = wordText .line w :=
  compactChars_object

theorem prettyChars_word (level : Nat) (w : Word) :
    prettyChars level w.document = wordText (.lines level) w :=
  prettyChars_object (List.cons_ne_nil _ _)

/-! ## Texts of transcripts -/

/-- The text of a transcript, with a layout for the whole, one for its list and one for its
words. -/
def transcriptText (whole list layout : Layout) (t : Transcript) : List Char :=
  objectText whole [("words", listText list (t.words.map (wordText layout)))]

theorem accept_words (t : Transcript) : Transcript.accept t.words = .ok t := by
  rw [Transcript.accept, Transcript.ofWords_eq_ok t.sound]

/-- A transcript is read from its text if its times are read back. -/
theorem reads_transcript (back : ∀ w ∈ t.words, ReadsBack w.start ∧ ReadsBack w.stop) :
    Reads Transcript.decoder (transcriptText whole list layout t) t := by
  have words : List.Forall₂ (Reads Word.shape.decoder) (t.words.map (wordText layout))
      t.words := by
    rw [List.forall₂_map_left_iff, List.forall₂_same]
    intro w member
    obtain ⟨start, stop⟩ := back w member
    exact reads_word start stop
  have opens : ∀ text ∈ t.words.map (wordText layout), Opens text := by
    intro text member
    obtain ⟨w, _, rfl⟩ := List.mem_map.1 member
    exact opens_wordText
  have record : Reads Transcript.shape.decoder (transcriptText whole list layout t) t.words :=
    reads_record (.field rfl rfl (reads_demanded (reads_list opens words)) (.done rfl))
  exact record.refine (accept_words t)

theorem compactChars_transcript (t : Transcript) :
    compactChars t.document = transcriptText .line .line .line t := by
  have words : (t.words.map Word.document).map compactChars = t.words.map (wordText .line) := by
    rw [List.map_map]
    exact List.map_congr_left fun w _ => compactChars_word w
  rw [Transcript.document, compactChars_object, List.map_singleton, compactChars_list, words]
  rfl

/-- A list without words stands on one line. -/
theorem exists_prettyChars_transcript (t : Transcript) :
    ∃ list, prettyChars 0 t.document = transcriptText (.lines 0) list (.lines 2) t := by
  rw [Transcript.document, prettyChars_object (List.cons_ne_nil _ _), List.map_singleton]
  rcases eq_or_ne t.words [] with empty | nonempty
  · refine ⟨.line, ?_⟩
    rw [transcriptText, empty]
    rfl
  · have words : (t.words.map Word.document).map (prettyChars 2) =
        t.words.map (wordText (.lines 2)) := by
      rw [List.map_map]
      exact List.map_congr_left fun w _ => prettyChars_word 2 w
    have documents : t.words.map Word.document ≠ [] := fun empty =>
      nonempty (List.map_eq_nil_iff.1 empty)
    refine ⟨.lines 1, ?_⟩
    rw [prettyChars_list documents, words]
    rfl

end Texts

/-! ## Reading transcripts -/

namespace Transcript

theorem ofText_eq_ok_iff {text : String} {t : Transcript} :
    ofText text = .ok t ↔ decode decoder text = .ok t := by
  rw [ofText]
  cases decode decoder text <;> simp [Except.mapError]

theorem accept_eq_ok_iff {words : List Word} {t : Transcript} :
    accept words = .ok t ↔ t.words = words := by
  constructor
  · intro accepted
    rw [accept] at accepted
    split at accepted
    next same => cases accepted; exact words_of_ofWords_eq_ok same
    next => cases accepted
  · rintro rfl
    exact accept_words t

/-- **A text gives a transcript** exactly if it is a text with its words. -/
theorem ofText_eq_ok_iff_words {text : String} {t : Transcript} :
    ofText text = .ok t ↔ decode shape.decoder text = .ok t.words := by
  rw [ofText_eq_ok_iff, decode_eq_ok_iff, decode_eq_ok_iff]
  constructor
  · rintro ⟨rest, blank, read⟩
    obtain ⟨⟨words, left⟩, readWords, accepted⟩ := bind_eq_ok.1 read
    obtain ⟨u, same, pair⟩ := bind_eq_ok.1 accepted
    cases pair
    exact ⟨rest, blank, accept_eq_ok_iff.1 same ▸ readWords⟩
  · rintro ⟨rest, blank, read⟩
    refine ⟨rest, blank, bind_eq_ok.2 ⟨_, read, bind_eq_ok.2 ⟨t, accept_words t, rfl⟩⟩⟩

/-- Words that are refused are refused in a text, for the same reason. -/
theorem ofText_of_refused {text : String} {words : List Word} {rest : List Char}
    {failure : Failure} (read : shape.decoder text.toList = .ok (words, rest))
    (refused : ofWords words = .error failure) :
    ofText text = .error (.json (.refused failure.message)) := by
  have accepted : accept words = .error (.refused failure.message) := by
    rw [accept, refused]
  have failed : decoder text.toList = .error (.refused failure.message) := by
    rw [decoder, Decoder.refine, read]
    dsimp only [Bind.bind, Except.bind]
    rw [accepted]
  rw [ofText, decode, failed]
  rfl

/-- Both texts that are written of a transcript give it back if its times are read back. -/
theorem ofText_document {t : Transcript}
    (back : ∀ w ∈ t.words, ReadsBack w.start ∧ ReadsBack w.stop) :
    ofText t.document.compact = .ok t ∧ ofText t.document.pretty = .ok t := by
  constructor
  · rw [ofText_eq_ok_iff, compact, compactChars_transcript]
    exact (reads_transcript back).decode
  · obtain ⟨list, written⟩ := exists_prettyChars_transcript t
    rw [ofText_eq_ok_iff, pretty, written]
    exact (reads_transcript back).decode

/-- A transcript whose times have few digits is read back. -/
theorem ofText_document_of_hasFewDigits {t : Transcript}
    (few : ∀ w ∈ t.words, HasFewDigits w.start ∧ HasFewDigits w.stop) :
    ofText t.document.compact = .ok t ∧ ofText t.document.pretty = .ok t :=
  ofText_document fun w member =>
    ⟨readsBack_of_hasFewDigits (isFinite_start member) (few w member).1,
      readsBack_of_hasFewDigits (isFinite_stop member) (few w member).2⟩

/-- **JSON texts of transcripts.**  A transcript is read back from both texts that are written of
it, if its times are read back.  Every text that is read as a transcript is a text with its words,
so these are in order; and a text with words that are not in order is refused with the message that
`Transcript.ofWords` has for them. -/
theorem ofText_faithful :
    (∀ t : Transcript, (∀ w ∈ t.words, ReadsBack w.start ∧ ReadsBack w.stop) →
      ofText t.document.compact = .ok t ∧ ofText t.document.pretty = .ok t) ∧
    (∀ (text : String) (t : Transcript),
      ofText text = .ok t ↔ decode shape.decoder text = .ok t.words) ∧
    (∀ (text : String) (t : Transcript), ofText text = .ok t →
      (∀ w ∈ t.words, w.IsProper) ∧
        t.words.Pairwise fun v w => v.start.toRat ≤ w.start.toRat) ∧
    ∀ (text : String) (words : List Word), decode shape.decoder text = .ok words →
      ¬ ((∀ w ∈ words, w.IsProper) ∧
        words.Pairwise fun v w => v.start.toRat ≤ w.start.toRat) →
      ∃ failure, ofWords words = .error failure ∧
        ofText text = .error (.json (.refused failure.message)) := by
  refine ⟨fun t => ofText_document, fun text t => ofText_eq_ok_iff_words, fun text t read => ?_,
    fun text words read improper => ?_⟩
  · exact exists_ofWords_eq_ok_iff.1 ⟨t, ofWords_eq_ok t.sound⟩
  · obtain ⟨rest, _, readWords⟩ := decode_eq_ok_iff.1 read
    cases accepted : ofWords words with
    | ok t => exact absurd (exists_ofWords_eq_ok_iff.1 ⟨t, accepted⟩) improper
    | error failure => exact ⟨failure, rfl, ofText_of_refused readWords accepted⟩

/-- Two words, one of them with signs that have to be named in a text. -/
def greeting : Transcript := ⟨[⟨"hello", 0.25, 0.5⟩, ⟨"\"you\"\n", 0.5, 1.1⟩], by decide +kernel⟩

theorem ofText_faithful_greeting :
    (∀ w ∈ greeting.words, ReadsBack w.start ∧ ReadsBack w.stop) ∧
      ofText greeting.document.compact = .ok greeting ∧
      ofText greeting.document.pretty = .ok greeting :=
  have back : ∀ w ∈ greeting.words, ReadsBack w.start ∧ ReadsBack w.stop := by decide +kernel
  ⟨back, ofText_faithful.1 greeting back⟩

end Transcript

end Slidecast.Speech
