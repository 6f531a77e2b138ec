import Slidecast.Proofs.Job.Manifest
import Slidecast.Proofs.Job.Opening
import Slidecast.Proofs.Slideshow.Reading

/-!
# Jobs that succeed

A job that succeeds has left everything it delivers in its directory, each file under a name of
its own, whatever the order of turns, the pictures and the sounds were (`success_is_complete`).
The playlist names what is delivered, and the manifest is read back as it.
-/

set_option autoImplicit false

namespace Slidecast

open Files Number Speech

/-- The paths of all files that a job delivers, with the manifest. -/
def Deliverables.files (made : Deliverables) : List Path :=
  made.frames ++ [made.playlist] ++ [made.subtitles] ++ made.sound.toList ++
    [made.directory / ⟨manifestName⟩]

namespace Job

variable {directory : Path} {site : Site directory}

/-! ## What is delivered at a site -/

section Delivered

variable {strict : Prop} {settings : Settings} {order : Order} {words : Transcript}
  {made : Deliverables} {w : World}

/-- All files have different names in the directory. -/
theorem Delivered.files_eq (delivered : Delivered site strict settings order words made w) :
    ∃ names, AreOf (fun name => IsMade name ∨ IsManifest name) names ∧
      made.files = names.map fun name => directory / ⟨name⟩ := by
  obtain ⟨sound?, isSound, same⟩ : ∃ sound? : Option String,
      (∀ name ∈ sound?, IsSound name) ∧ made.sound = sound?.map fun name => directory / ⟨name⟩ := by
    cases sounds : made.sound with
    | none => exact ⟨none, (fun _ absent => nomatch absent), rfl⟩
    | some path =>
        obtain ⟨⟨name, isSound, _, rfl⟩, _⟩ := delivered.sound.made path sounds
        refine ⟨some name, fun other member => ?_, rfl⟩
        cases member
        exact isSound
  refine ⟨_, areOf_names (order.project.picturePaths order.base).length isSound, ?_⟩
  have frames : made.frames = _ := delivered.visuals.frames
  have playlist : made.playlist = _ := delivered.visuals.playlist
  obtain ⟨size, subtitles, _⟩ := delivered.subtitles
  rw [Deliverables.files, frames, playlist, subtitles, same, delivered.directory]
  simp only [Picture.targets, List.map_append, List.map_map, Function.comp_def, List.map_cons,
    List.map_nil]
  cases sound? with
  | none => rfl
  | some name => rfl

theorem Delivered.nodup_files (delivered : Delivered site strict settings order words made w) :
    made.files.Nodup := by
  obtain ⟨names, areOf, same⟩ := delivered.files_eq
  rw [same]
  refine List.Pairwise.map _ (fun name other apart => apart) ?_
  refine areOf.nodup.imp_of_mem fun member member' apart same => apart ?_
  have isName := isName_of_isMade (areOf.are _ member)
  have isName' := isName_of_isMade (areOf.are _ member')
  exact Path.join_name_inj isName isName' same

/-- Every file is in the directory. -/
theorem Delivered.inside (delivered : Delivered site strict settings order words made w)
    {file : Path} (member : file ∈ made.files) :
    ∃ name, Path.IsName name ∧ file = directory / ⟨name⟩ := by
  obtain ⟨names, areOf, same⟩ := delivered.files_eq
  rw [same] at member
  obtain ⟨name, among, rfl⟩ := List.mem_map.1 member
  exact ⟨name, isName_of_isMade (areOf.are name among), rfl⟩

/-- All paths are texts, as there is a manifest. -/
theorem Delivered.areTexts (delivered : Delivered site strict settings order words made w) :
    made.AreTexts := by
  obtain ⟨_, written, _⟩ := delivered.manifest
  exact (Deliverables.manifest_eq_ok_iff.1 written).1

/-- Every file is there, if calls can be trusted to make it. -/
theorem Delivered.hasFile (delivered : Delivered site False settings order words made w)
    {file : Path} (member : file ∈ made.files) : w.disk.hasFile file = true := by
  simp only [Deliverables.files, List.mem_append, List.mem_singleton, Option.mem_toList] at member
  rcases member with (((frame | rfl) | rfl) | sound) | rfl
  · exact (delivered.visuals.allHave file frame).hasFile
  · have playlist : made.playlist = _ := delivered.visuals.playlist
    rw [playlist]
    exact delivered.visuals.stores.hasFile isName_playlistName
  · obtain ⟨size, subtitles, stores⟩ := delivered.subtitles
    rw [subtitles]
    exact stores.hasFile isName_scriptName
  · have text : file.IsText := delivered.areTexts file (by simp [Deliverables.paths, sound])
    exact ((delivered.sound.made file sound).2 id text).hasFile
  · rw [delivered.directory]
    obtain ⟨_, _, stores⟩ := delivered.manifest
    exact stores.hasFile isName_manifestName

/-- The playlist names the frames, and then the last one again. -/
theorem Delivered.playlist (delivered : Delivered site strict settings order words made w) :
    ∃ text entries, w.disk.readText made.playlist = .ok text ∧
      Slideshow.entries? text.toList = some entries ∧
      entries.map Slideshow.Entry.path = made.frames ++ made.frames.getLast?.toList := by
  have playlist : made.playlist = _ := delivered.visuals.playlist
  have read := delivered.visuals.stores.readText isName_playlistName
  have paths := Slideshow.paths_of_playlist settings.fallback made.frames
    (Slideshow.cuts words made.frames.length order.project.markers).2
  obtain ⟨entries, listed, same⟩ := Option.map_eq_some_iff.1 paths
  have shown : (made.frames ++ made.frames.getLast?.toList).map Path.asShown =
      made.frames ++ made.frames.getLast?.toList := by
    refine (List.map_congr_left fun p member => ?_).trans (List.map_id _)
    refine delivered.areTexts p (List.mem_cons_of_mem _ (List.mem_append_left _ ?_))
    rcases List.mem_append.1 member with frame | last
    · exact frame
    · exact List.mem_of_getLast? (Option.mem_toList.1 last)
  rw [playlist]
  exact ⟨_, entries, read, listed, same.trans shown⟩

end Delivered

/-! ## Jobs that succeed -/

theorem pictures_ne_nil_of_validate {project : Project} (valid : project.validate = .ok ()) :
    project.pictures ≠ [] := by
  intro empty
  unfold Project.validate at valid
  simp only [empty, List.isEmpty_nil, if_true] at valid
  split at valid
  · cases valid
  · split at valid
    · cases valid
    · cases valid

/-- A job with a fresh name that succeeds has delivered at a site. -/
theorem exists_delivered {settings : Settings} {toolbox : Toolbox} {order : Order}
    {schedule : Schedule} {w w' : World} {made : Deliverables} (reliable : toolbox.Reliable)
    (fresh : Fresh w.disk settings.root (nameOf order))
    (done : Action.perform (process settings toolbox order schedule) w = (.ok made, w')) :
    order.project.pictures ≠ [] ∧
      ∃ site : Site (directoryOf settings order w.disk), ∃ words,
        Delivered site False settings order words made w' := by
  have trusted : Trusted False toolbox :=
    ⟨reliable.careful.mono fun _ counts => counts.resolve_left id, fun _ => reliable⟩
  rw [perform_process] at done
  split at done
  · cases done
  · cases done
  · next valid =>
      refine ⟨pictures_ne_nil_of_validate valid, ?_⟩
      obtain ⟨between, _, _, ⟨site, opened, provided⟩ | ⟨fault, provided⟩⟩ :=
        fresh.provideDirectory
      · rw [provided] at done
        have ended := eq_of_settled_ok done
        have holds : site.Holds
            { w with disk := site.ground, board := w.board.reset : World }.disk :=
          site.holds_ground
        rcases (secures_makeAll settings trusted order schedule holds).perform holds with
          ⟨_, failure, failed⟩ | ⟨_, delivers⟩
        · rw [ended] at failed
          cases failed
        · rw [ended] at delivers
          exact ⟨site, delivers made rfl⟩
      · rw [provided] at done
        cases done

/-- What a job delivers is complete: its files are different ones in its directory, and all of
them are there; there is a frame for each picture, and sound if the project has any; the words are
those of the utterance; the playlist names the frames in order and the last one again; and the
manifest describes all of this. -/
structure Complete (settings : Settings) (order : Order) (before after : Disk)
    (made : Deliverables) : Prop where
  directory : made.directory = directoryOf settings order before
  absolute : made.directory.isAbsolute = true
  frames : made.frames = (List.range order.project.pictures.length).map fun index =>
    made.directory / ⟨Picture.frameName index⟩
  apart : made.files.Nodup
  inside : ∀ file ∈ made.files, ∃ name, Path.IsName name ∧ file = made.directory / ⟨name⟩
  there : ∀ file ∈ made.files, after.hasFile file = true
  sound : made.sound = none ↔ order.project.sounds = []
  words : ∃ words, order.utterance.transcript = .ok words ∧ made.wordCount = words.words.length
  playlist : ∃ text entries last, after.readText made.playlist = .ok text ∧
    Slideshow.entries? text.toList = some entries ∧ made.frames.getLast? = some last ∧
    entries.map Slideshow.Entry.path = made.frames ++ [last]
  /-- The manifest is kept as a text, and a reader of this text gets back what is delivered: all
  of it, if its numbers fit into their words and the duration is read back. -/
  manifest : ∃ text, after.readText (made.directory / ⟨manifestName⟩) = .ok text ∧
    made.manifest = .ok text ∧ (made.FitsWords → ∀ duration, made.ReadsDurationAs duration →
      Deliverables.ofManifest? text = some { made with duration := duration })

/-- **Success is complete.**  A job with a fresh name that succeeds has delivered everything,
whatever the order of turns, if a call of the media tools that succeeds touches no more than the
file it names, and leaves it there. -/
theorem success_is_complete (settings : Settings) (toolbox : Toolbox) (order : Order)
    (schedule : Schedule) (w w' : World) (made : Deliverables) (reliable : toolbox.Reliable)
    (fresh : Fresh w.disk settings.root (nameOf order))
    (done : Action.perform (process settings toolbox order schedule) w = (.ok made, w')) :
    Complete settings order w.disk w'.disk made := by
  obtain ⟨filled, site, words, delivered⟩ := exists_delivered reliable fresh done
  have here := delivered.directory
  have frames : made.frames = (List.range order.project.pictures.length).map fun index =>
      made.directory / ⟨Picture.frameName index⟩ := by
    have named : made.frames = _ := delivered.visuals.frames
    rw [named, here, Project.picturePaths, List.length_map]
    rfl
  have nonempty : made.frames ≠ [] := by
    intro empty
    have count := congrArg List.length (frames.symm.trans empty)
    simp [filled] at count
  obtain ⟨text, entries, read, listed, paths⟩ := delivered.playlist
  have last := List.getLast?_eq_some_getLast nonempty
  obtain ⟨manifest, written, stores⟩ := delivered.manifest
  have kept : w'.disk.readText (made.directory / ⟨manifestName⟩) = .ok manifest := by
    rw [here]
    exact stores.readText isName_manifestName
  rw [last] at paths
  have tracks : order.project.tracks order.base = [] ↔ order.project.sounds = [] := by
    simp [Project.tracks]
  exact
    { directory := here
      absolute := by
        rw [here]
        exact Disk.isAbsolute_absolute w.disk _
      frames := frames
      apart := delivered.nodup_files
      inside := fun file member => by
        rw [here]
        exact delivered.inside member
      there := fun file member => delivered.hasFile member
      sound := delivered.sound.none_iff.trans tracks
      words := ⟨words, delivered.transcript, delivered.wordCount⟩
      playlist := ⟨text, entries, _, read, listed, last, paths⟩
      manifest := ⟨manifest, kept, written,
        fun fits duration read => Deliverables.ofManifest?_manifest written fits read⟩ }

/-- A tool that writes a text to the file named by its last argument, and fails if there is no
such file then. -/
def scribe : Toolbox := fun _ call d =>
  if call.arguments.head? = some "-version" then (.ok { stdout := "ffmpeg version 6.1.1" }, d)
  else
    match Rehearsal.written "audio" call.arguments d with
    | .error fault => (.error (.io fault), d)
    | .ok d' =>
        if call.arguments.getLast?.any fun path => d'.hasFile (.ofText path) then (.ok {}, d')
        else (.error (Rehearsal.failure call.tool), d')

theorem reliable_scribe : scribe.Reliable where
  careful :=
    { version := fun calls d _ place => by simp [scribe]
      making := fun calls arguments file d makes _ => by
        obtain ⟨last, named, rfl⟩ := makes.exists_getLast?_eq
        unfold scribe Rehearsal.written
        simp only [makes.head?_ne_version, if_false, named]
        split
        · exact .refl d _
        · next d' wrote => split <;> exact Disk.touchesOnly_write wrote }
  leaves calls arguments file d makes succeeded := by
    obtain ⟨last, named, rfl⟩ := makes.exists_getLast?_eq
    unfold scribe at succeeded ⊢
    simp only [makes.head?_ne_version, if_false] at succeeded ⊢
    split at succeeded
    · obtain ⟨_, failed⟩ := succeeded
      cases failed
    · split at succeeded
      · next there =>
          rw [if_pos there]
          simpa [named] using there
      · obtain ⟨_, failed⟩ := succeeded
        cases failed

/-- A job with two pictures and a sound. -/
def reel : Order where
  id := "job-1"
  project :=
    { name := "reel", duration := 1, pictures := ["one.png", "two.png"],
      sounds := [{ source := "song.mp3" }] }
  utterance := ⟨["a", " ", "b"], [0, 1, 1], [1, 1, 2]⟩
  base := ⟨"/work"⟩
  createdAt := "2026-01-01T00:00:00Z"

/-- A picture of one pixel. -/
def onePixel : Content := .picture .png ⟨1, 1, fun _ _ => ⟨0, 0, 0, 255⟩⟩

/-- A disk on which there is what the job needs. -/
def studio : World :=
  { disk := (((Disk.empty ["work"]).put ["work", "one.png"] (.file onePixel)).put
      ["work", "two.png"] (.file onePixel)).put ["work", "song.mp3"] (.file (.text "ID3")) }

theorem fresh_studio : Fresh studio.disk ⟨"it's"⟩ (nameOf reel) := by
  have plain : nameOf reel = "job-1" := Text.kept_of_isPlainText (by decide)
  rw [plain]
  exact
    { isName := by decide
      unused := (((Disk.unused_empty (by decide)).put (by decide) (by decide) _).put (by decide)
        (by decide) _).put (by decide) (by decide) _
      unnamed := by decide +kernel }

/-- The job is done in a directory with a quote in its path and with small frames, while the branches
take turns.  The manifest that is kept there is read back as what was delivered. -/
theorem complete_reel :
    let settings : Settings := { root := ⟨"it's"⟩ }
    let order := { reel with project := { reel.project with width := some 4, height := some 2 } }
    let schedule : Schedule :=
      { crew := { order := [1] }, subtitleTurns := [.right, .left], soundTurns := [.right, .left] }
    ∃ made w', Action.perform (process settings scribe order schedule) studio = (.ok made, w') ∧
      made.sound = some ⟨"/work/it's/job-1/trimmed-1s-song.mp3"⟩ ∧ made.wordCount = 2 ∧
      Complete settings order studio.disk w'.disk made ∧
      ∃ text, w'.disk.readText (made.directory / ⟨manifestName⟩) = .ok text ∧
        Deliverables.ofManifest? text = some made := by
  intro settings order schedule
  have run : (Action.perform (process settings scribe order schedule) studio).1.toOption.map
      (fun made => (made.sound, made.wordCount, made.width, made.height, made.duration)) =
        some (some ⟨"/work/it's/job-1/trimmed-1s-song.mp3"⟩, 2, 4, 2, 1) := by
    decide +kernel
  obtain ⟨made, succeeded, same⟩ := Option.map_eq_some_iff.1 run
  simp only [Prod.mk.injEq] at same
  obtain ⟨sound, wordCount, width, height, duration⟩ := same
  cases ended : Action.perform (process settings scribe order schedule) studio with
  | mk outcome w' =>
      rw [ended] at succeeded
      cases outcome with
      | error failure => cases succeeded
      | ok other =>
          cases succeeded
          have complete := success_is_complete settings scribe order schedule studio w' made
            reliable_scribe fresh_studio ended
          obtain ⟨text, kept, _, back⟩ := complete.manifest
          have fits : made.FitsWords := by
            constructor
            · rw [width]
              decide
            · rw [height]
              decide
            · rw [wordCount]
              decide
          have read : made.ReadsDurationAs made.duration := by
            rw [Deliverables.ReadsDurationAs, duration]
            decide +kernel
          exact ⟨made, w', rfl, sound, wordCount, complete, text, kept, back fits _ read⟩

end Job

end Slidecast
