import Slidecast.Proofs.Files.Layout
import Slidecast.Proofs.Files.Shown
import Slidecast.Proofs.Interference

/-!
# The site of a job

A job works in a directory that was bare when it was made: the site.  Around it, everything stays
as it was; in it, there are only files (`Site.Holds`).  So the directory is found at the same place
at all times, and a name in it is written at its own place there (`newPlace_name`).  Tools are told
paths as they are shown, and what the path of the directory is shown as names this directory or none;
so a file that is told to a tool is at its own place, too, or nowhere (`isPlaceOf_asShown`).

Files are handed out to tasks by their names.  A change of files with some names leaves everything
else alone (`Site.Alters`), and tasks that have different names do not disturb each other
(`Site.splits`).
-/

set_option autoImplicit false

namespace Slidecast

open Files

namespace Job

/-- A directory in which there was nothing when it was made. -/
structure Site (directory : Path) where
  /-- The disk at that time. -/
  ground : Disk
  place : Place
  absolute : directory.isAbsolute = true
  found : ground.find directory = .ok (place, .directory)
  bare : ∀ other, place <+: other → other ≠ place → ground.lookup other = none
  /-- What the path of the directory is shown as names no other directory. -/
  alone : ∀ other, ground.walkPlaces directory.asShown.segments [] = .ok other →
    ground.lookup other = some .directory → other = place

namespace Site

variable {directory : Path} (site : Site directory) {d d' : Disk}

/-- The place of a name in the directory. -/
def placeOf (name : String) : Place := site.place ++ [name]

/-- Around the directory everything is as it was, and in it there are only files. -/
structure Holds (d : Disk) : Prop where
  around : ∀ other, ¬ (site.place <+: other ∧ other ≠ site.place) →
    d.lookup other = site.ground.lookup other
  inside : ∀ other, site.place <+: other → other ≠ site.place → VacantOrFile (d.lookup other)

/-- Only files with certain names in the directory are changed. -/
def Alters (names : String → Prop) (d d' : Disk) : Prop :=
  ∀ other, d'.lookup other = d.lookup other ∨
    ((∃ name, names name ∧ other = site.placeOf name) ∧ VacantOrFile (d'.lookup other))

variable {site}

theorem holds_ground : site.Holds site.ground where
  around _ _ := rfl
  inside other below apart := .inl (site.bare other below apart)

theorem below_placeOf (name : String) :
    site.place <+: site.placeOf name ∧ site.placeOf name ≠ site.place := by
  refine ⟨List.prefix_append _ _, fun same => ?_⟩
  have longer := congrArg List.length same
  simp [placeOf] at longer

theorem placeOf_inj {name other : String} (same : site.placeOf name = site.placeOf other) :
    name = other := by
  simpa [placeOf] using same

theorem Alters.refl (names : String → Prop) (d : Disk) : site.Alters names d d :=
  fun _ => .inl rfl

theorem Alters.trans {names : String → Prop} {d'' : Disk} (first : site.Alters names d d')
    (second : site.Alters names d' d'') : site.Alters names d d'' := by
  intro other
  rcases second other with same | changed
  · rcases first other with same' | ⟨own, held⟩
    · exact .inl (same.trans same')
    · rw [← same] at held
      exact .inr ⟨own, held⟩
  · exact .inr changed

theorem Alters.mono {names more : String → Prop} (alters : site.Alters names d d')
    (implies : ∀ name, names name → more name) : site.Alters more d d' := by
  intro other
  rcases alters other with same | ⟨⟨name, own, here⟩, held⟩
  · exact .inl same
  · exact .inr ⟨⟨name, implies name own, here⟩, held⟩

/-- A name that is not among those of a change keeps what it has. -/
theorem Alters.lookup_eq {names : String → Prop} (alters : site.Alters names d d') {name : String}
    (other : ¬ names name) : d'.lookup (site.placeOf name) = d.lookup (site.placeOf name) := by
  rcases alters (site.placeOf name) with same | ⟨⟨name', own, here⟩, _⟩
  · exact same
  · rw [placeOf_inj here] at other
    exact absurd own other

theorem Holds.of_alters {names : String → Prop} (holds : site.Holds d)
    (alters : site.Alters names d d') : site.Holds d' where
  around other outside := by
    rcases alters other with same | ⟨⟨name, _, here⟩, _⟩
    · exact same.trans (holds.around other outside)
    · rw [here] at outside
      exact absurd (below_placeOf name) outside
  inside other below apart := by
    rcases alters other with same | ⟨_, held⟩
    · rw [same]
      exact holds.inside other below apart
    · exact held

/-! ## Finding things at the site -/

theorem Holds.keeps (holds : site.Holds d) : site.ground.Keeps d := by
  intro other node held
  rw [holds.around other fun ⟨below, apart⟩ => ?_]
  · exact held
  · rw [site.bare other below apart] at held
    cases held

/-- All directories and links are around the directory of the site. -/
theorem Holds.keepsLayout (holds : site.Holds d) :
    d.KeepsLayout { site.ground with working := d.working } := by
  have ofGround : ∀ {other node}, d.lookup other = some node →
      (∀ content, node ≠ .file content) → site.ground.lookup other = some node := by
    intro other node held noFile
    rw [← holds.around other, held]
    rintro ⟨below, apart⟩
    rcases holds.inside other below apart with vacant | ⟨content, file⟩
    · rw [held] at vacant
      cases vacant
    · rw [held] at file
      exact noFile content (Option.some.inj file)
  exact ⟨rfl, fun held => ofGround held nofun, fun held => ofGround held nofun⟩

theorem Holds.find_directory (holds : site.Holds d) :
    d.find directory = .ok (site.place, .directory) :=
  Disk.find_of_keeps holds.keeps site.absolute site.found

/-- The directory of a site need not be made. -/
theorem Holds.provideDirectory (holds : site.Holds d) :
    d.provideDirectory directory = (.ok (), d) :=
  Disk.provideDirectory_of_find holds.find_directory

section Names

variable {name : String}

theorem isAbsolute_name (site : Site directory) (isName : Path.IsName name) :
    (directory / ⟨name⟩).isAbsolute = true := by
  rw [Path.isAbsolute_join isName, site.absolute]

/-- The segments of the directory lead to the place of the site. -/
theorem Holds.walkPlaces_directory (holds : site.Holds d) :
    d.walkPlaces directory.segments [] = .ok site.place :=
  Disk.walkPlaces_segments_of_find site.absolute holds.find_directory

/-- A name can be created in the directory unless it or its path is too long, and only at its own
place. -/
theorem Holds.newPlace_name_iff (holds : site.Holds d) (isName : Path.IsName name)
    {onDots : Fault} {own : Place} :
    d.newPlace (directory / ⟨name⟩) onDots = .ok own ↔
      d.startPlace (directory / ⟨name⟩) = .ok [] ∧ Disk.isTooLong name = false ∧
        own = site.placeOf name := by
  have front := Path.dropLast_segments_join (p := directory) isName
  have last := Path.getLast?_segments_join (p := directory) isName
  constructor
  · intro created
    obtain ⟨start, between, other, started, named, walked, _, _, short, rfl⟩ :=
      Disk.newPlace_eq_ok_iff.1 created
    have fromRoot := Disk.start_eq_nil (isAbsolute_name site isName) started
    subst fromRoot
    rw [front, holds.walkPlaces_directory] at walked
    rw [last] at named
    cases walked
    cases named
    exact ⟨started, short, rfl⟩
  · rintro ⟨started, short, rfl⟩
    have there := Disk.lookup_of_find holds.find_directory
    refine Disk.newPlace_eq_ok_iff.2
      ⟨[], site.place, name, started, last, ?_, there, isName.not_dots, short, rfl⟩
    rw [front]
    exact holds.walkPlaces_directory

/-- A name is created at its own place in the directory, if at all. -/
theorem Holds.newPlace_name (holds : site.Holds d) (isName : Path.IsName name) {onDots : Fault}
    {own : Place} (created : d.newPlace (directory / ⟨name⟩) onDots = .ok own) :
    own = site.placeOf name :=
  ((holds.newPlace_name_iff isName).1 created).2.2

/-- Whether a name can be created does not depend on the time, nor why it cannot. -/
theorem Holds.newPlace_eq (holds : site.Holds d) (later : site.Holds d')
    (isName : Path.IsName name) (onDots : Fault) :
    d'.newPlace (directory / ⟨name⟩) onDots = d.newPlace (directory / ⟨name⟩) onDots := by
  have absolute := isAbsolute_name site isName
  rw [Disk.newPlace_eq, Disk.newPlace_eq, Disk.startPlace_of_isAbsolute absolute d' d]
  cases started : d.startPlace (directory / ⟨name⟩) with
  | error fault => simp only [bind, Except.bind]
  | ok start =>
      obtain rfl := Disk.start_eq_nil absolute started
      have entered := Disk.enterPlace_eq_ok_iff.2 (Disk.lookup_of_find holds.find_directory)
      have enteredLater := Disk.enterPlace_eq_ok_iff.2 (Disk.lookup_of_find later.find_directory)
      simp only [bind, Except.bind, Path.getLast?_segments_join isName,
        Path.dropLast_segments_join isName, holds.walkPlaces_directory, later.walkPlaces_directory,
        entered, enteredLater]

theorem Holds.newPlace_of_holds (holds : site.Holds d) (isName : Path.IsName name)
    {onDots : Fault} {own : Place}
    (created : d.newPlace (directory / ⟨name⟩) onDots = .ok own) (later : site.Holds d') :
    d'.newPlace (directory / ⟨name⟩) onDots = .ok own :=
  (holds.newPlace_eq later isName onDots).trans created

/-- A file with a name is kept in the directory. -/
def Stores (site : Site directory) (d : Disk) (name : String) (content : Content) : Prop :=
  d.newPlace (directory / ⟨name⟩) .isDirectory = .ok (site.placeOf name) ∧
    d.lookup (site.placeOf name) = some (.file content)

variable {content : Content}

/-- A file stays as long as its place is left alone. -/
theorem Stores.of_lookup_eq (stores : site.Stores d name content) (isName : Path.IsName name)
    (holds : site.Holds d) (later : site.Holds d')
    (same : d'.lookup (site.placeOf name) = d.lookup (site.placeOf name)) :
    site.Stores d' name content :=
  ⟨holds.newPlace_of_holds isName stores.1 later, same.trans stores.2⟩

theorem Stores.find (stores : site.Stores d name content) (isName : Path.IsName name) :
    d.find (directory / ⟨name⟩) = .ok (site.placeOf name, .file content) :=
  Disk.find_of_newPlace stores.1 stores.2 (by simp) (.inr (Path.endsWithSlash_join isName))

theorem Stores.hasFile (stores : site.Stores d name content) (isName : Path.IsName name) :
    d.hasFile (directory / ⟨name⟩) = true := by
  simp [Disk.hasFile, stores.find isName]

theorem Stores.readText {text : String} (stores : site.Stores d name (.text text))
    (isName : Path.IsName name) : d.readText (directory / ⟨name⟩) = .ok text := by
  simp [Disk.readText, Disk.read, stores.find isName, bind, Except.bind, Content.text?]

end Names

/-! ## Changing files -/

theorem alters_put {names : String → Prop} {name : String} (own : names name)
    (content : Content) : site.Alters names d (d.put (site.placeOf name) (.file content)) := by
  intro other
  rw [Disk.lookup_put d (by simp [placeOf])]
  by_cases same : other = site.placeOf name
  · exact .inr ⟨⟨name, own, same⟩, .inr ⟨content, if_pos same⟩⟩
  · exact .inl (if_neg same)

theorem alters_erase {names : String → Prop} {name : String} (own : names name) :
    site.Alters names d (d.erase (site.placeOf name)) := by
  intro other
  rw [Disk.lookup_erase]
  by_cases same : other = site.placeOf name
  · exact .inr ⟨⟨name, own, same⟩, .inl (if_pos ⟨same, by simp [placeOf]⟩)⟩
  · exact .inl (if_neg fun both => same both.1)

/-- In the directory there are no links, so a name stands for its own place. -/
theorem Holds.resolve_placeOf (holds : site.Holds d) (name : String) :
    d.resolve (site.placeOf name) = site.placeOf name := by
  refine Disk.resolve_of_ne_link fun target linked => ?_
  rcases holds.inside _ (below_placeOf name).1 (below_placeOf name).2 with vacant | ⟨old, file⟩
  · rw [vacant] at linked
    cases linked
  · rw [file] at linked
    cases linked

/-- A file can be kept in the directory under every name. -/
theorem Holds.takesFile (holds : site.Holds d) (name : String) :
    d.TakesFile (site.placeOf name) := by
  rcases holds.inside _ (below_placeOf name).1 (below_placeOf name).2 with vacant | file
  · refine .inr ⟨vacant, ?_⟩
    rw [placeOf, List.dropLast_concat]
    exact Disk.lookup_of_find holds.find_directory
  · exact .inl file

/-- The only place of what a name that is a text is shown as is the place of this name. -/
theorem Holds.isPlaceOf_asShown {name : String} (holds : site.Holds d) (isName : Path.IsName name)
    (text : Text.kept (Text.shown name) = name) {other : Place}
    (own : d.IsPlaceOf (directory / ⟨name⟩).asShown other) : other = site.placeOf name := by
  obtain ⟨place, created, here⟩ := own
  have segments : (directory / ⟨name⟩).asShown.segments =
      directory.asShown.segments ++ [name] := by
    rw [Path.segments_asShown, Path.segments_join_name isName, List.map_append,
      Path.segments_asShown, List.map_singleton, text]
  obtain ⟨start, between, last, started, named, walked, held, _, _, rfl⟩ :=
    Disk.newPlace_eq_ok_iff.1 created
  have absolute := Path.isAbsolute_asShown (isAbsolute_name site isName)
  obtain rfl := Disk.start_eq_nil absolute started
  rw [segments, List.dropLast_concat] at walked
  rw [segments, List.getLast?_concat] at named
  obtain rfl := Option.some.inj named
  -- on the ground, the directory in which the tool works is the site
  have layout := holds.keepsLayout
  have site_eq : between = site.place :=
    site.alone between (layout.walkPlaces walked held) (layout.directory held)
  rw [site_eq] at here
  exact here.elim id fun led => led.trans (holds.resolve_placeOf name)

/-- Whether a file can be written at the site depends on its name alone. -/
theorem Holds.write_eq {name : String} (holds : site.Holds d) (isName : Path.IsName name)
    (content : Content) :
    d.write (directory / ⟨name⟩) content =
      (d.newPlace (directory / ⟨name⟩) .isDirectory).map fun _ =>
        d.put (site.placeOf name) (.file content) := by
  cases created : d.newPlace (directory / ⟨name⟩) .isDirectory with
  | error fault =>
      rw [Disk.write, created]
      rfl
  | ok own =>
      obtain rfl := holds.newPlace_name isName created
      refine Disk.write_eq_ok_iff.2 ⟨site.placeOf name, ⟨site.placeOf name, ?_, ?_⟩, ?_⟩
      · exact ⟨created, Path.endsWithSlash_join isName⟩
      · exact (holds.resolve_placeOf name).symm
      · exact .inr ⟨holds.takesFile name, rfl⟩

/-- Writing a file at the site changes this file alone and leaves it there. -/
theorem Holds.write {names : String → Prop} {name : String} {content : Content}
    (holds : site.Holds d) (isName : Path.IsName name) (own : names name)
    (wrote : d.write (directory / ⟨name⟩) content = .ok d') :
    site.Alters names d d' ∧ site.Stores d' name content := by
  obtain ⟨place, created, _⟩ := bind_eq_ok.1 wrote
  obtain rfl := holds.newPlace_name isName created
  rw [holds.write_eq isName, created] at wrote
  cases wrote
  have alters : site.Alters names d (d.put (site.placeOf name) (.file content)) :=
    alters_put own content
  refine ⟨alters, holds.newPlace_of_holds isName created (holds.of_alters alters), ?_⟩
  rw [Disk.lookup_put d (by simp [placeOf]), if_pos rfl]

/-- Removing a file at the site changes this file alone. -/
theorem Holds.removeFile {names : String → Prop} {name : String} (holds : site.Holds d)
    (isName : Path.IsName name) (own : names name)
    (removed : d.removeFile (directory / ⟨name⟩) = .ok d') : site.Alters names d d' := by
  obtain ⟨place, created, removed⟩ := bind_eq_ok.1 removed
  have here := holds.newPlace_name isName created
  subst here
  rw [Path.endsWithSlash_join isName] at removed
  split at removed
  · cases removed
  · cases removed
  · cases removed
    exact alters_erase own

/-- Removing files at the site, as far as they can be removed, changes these files alone. -/
theorem Holds.removeAll {names : String → Prop} {paths : List Path} (holds : site.Holds d)
    (own : ∀ p ∈ paths, ∃ name, names name ∧ Path.IsName name ∧ p = directory / ⟨name⟩) :
    site.Alters names d (d.removeAll paths).2 := by
  induction paths generalizing d with
  | nil => exact .refl names d
  | cons p paths ih =>
      have rest : ∀ q ∈ paths, ∃ name, names name ∧ Path.IsName name ∧ q = directory / ⟨name⟩ :=
        fun q member => own q (List.mem_cons_of_mem p member)
      obtain ⟨name, isOwn, isName, rfl⟩ := own p List.mem_cons_self
      rw [Disk.removeAll]
      split
      · next d' removed =>
          have first : site.Alters names d d' := by
            unfold Disk.removeIfPresent at removed
            split at removed
            · exact holds.removeFile isName isOwn removed
            · cases removed
              exact .refl names d
          exact first.trans (ih (holds.of_alters first) rest)
      · exact .refl names d

/-- An operation that touches only what a file at the site is shown as changes this file alone. -/
theorem Holds.alters_of_touchesOnly {names : String → Prop} {name : String}
    (holds : site.Holds d) (isName : Path.IsName name) (text : Text.kept (Text.shown name) = name)
    (own : names name) (touches : d.TouchesOnly d' (directory / ⟨name⟩).asShown) :
    site.Alters names d d' := by
  intro other
  rcases touches other with same | ⟨here, held⟩
  · exact .inl same
  · exact .inr ⟨⟨name, own, holds.isPlaceOf_asShown isName text here⟩, held⟩

/-- A file that is found under a name is kept there. -/
theorem Holds.stores_of_hasFile {name : String} (holds : site.Holds d)
    (isName : Path.IsName name) (there : d.hasFile (directory / ⟨name⟩) = true) :
    ∃ content, site.Stores d name content := by
  unfold Disk.hasFile at there
  split at there
  · next place content found =>
      obtain ⟨start, started, walked, held⟩ := Disk.find_eq_ok_iff.1 found
      have fromRoot := Disk.start_eq_nil (isAbsolute_name site isName) started
      subst fromRoot
      rw [Disk.steps, Path.endsWithSlash_join isName, Path.segments_join_name isName] at walked
      simp only [Bool.false_eq_true, if_false] at walked
      rw [Disk.walkPlaces_append, holds.walkPlaces_directory] at walked
      obtain ⟨_, same, walked⟩ := bind_eq_ok.1 walked
      cases same
      rw [Disk.walkPlaces_cons] at walked
      obtain ⟨next, stepped, same⟩ := bind_eq_ok.1 walked
      cases same
      obtain ⟨_, short, here⟩ := (Disk.stepPlace_name_eq_ok_iff isName.not_dots).1 stepped
      have reached : place = site.placeOf name := here.trans (holds.resolve_placeOf name)
      rw [reached] at held
      exact ⟨content, (holds.newPlace_name_iff isName).2 ⟨started, short, rfl⟩, held⟩
  · cases there

/-! ## Terms for tasks at the site -/

/-- A task with some names relies on the others not to touch these, and touches no others. -/
def terms (site : Site directory) (names : String → Prop) : Task.Terms World where
  base w := site.Holds w.disk
  rely w w' := ∀ name, names name →
    w'.disk.lookup (site.placeOf name) = w.disk.lookup (site.placeOf name)
  guarantee w w' := site.Alters names w.disk w'.disk
  rely_refl _ _ _ := rfl
  rely_trans first second name own := (second name own).trans (first name own)
  base_of_guarantee alters holds := holds.of_alters alters

/-- **Different names, no disturbance.**  Tasks that share the names of a whole, each name in one
of them, keep to what the others rely on. -/
theorem splits {whole left right : String → Prop} (inLeft : ∀ name, left name → whole name)
    (inRight : ∀ name, right name → whole name) (apart : ∀ name, left name → ¬ right name) :
    Task.Terms.Splits (site.terms whole) (site.terms left) (site.terms right) where
  base_left holds := holds
  base_right holds := holds
  rely_left rely name own := rely name (inLeft name own)
  rely_right rely name own := rely name (inRight name own)
  guarantee_left alters :=
    ⟨alters.mono inLeft, fun _ own => alters.lookup_eq fun other => apart _ other own⟩
  guarantee_right alters :=
    ⟨alters.mono inRight, fun _ own => alters.lookup_eq fun other => apart _ own other⟩

/-- A statement that depends on nothing but the files with some names. -/
def About (site : Site directory) (names : String → Prop) (fact : World → Prop) : Prop :=
  ∀ ⦃w w' : World⦄, site.Holds w.disk → site.Holds w'.disk →
    (∀ name, names name → w'.disk.lookup (site.placeOf name) = w.disk.lookup (site.placeOf name)) →
      fact w → fact w'

theorem about_stores {names : String → Prop} {name : String} {content : Content}
    (isName : Path.IsName name) (own : names name) :
    site.About names fun w => site.Stores w.disk name content :=
  fun _ _ holds later same stores => stores.of_lookup_eq isName holds later (same name own)

theorem About.lasts {names : String → Prop} {fact : World → Prop} {w : World}
    (about : site.About names fact) (holds : site.Holds w.disk) (now : fact w) :
    (site.terms names).Lasts fact w :=
  fun _ rely later => about holds later rely now

/-- What is known about the files of others stays when a task has its turns. -/
theorem secures_frame {few others names : String → Prop} {α : Type}
    {excuse : Except Failure α → Prop} {action : Action α} {post : α → World → Prop}
    {fact : World → Prop} {w : World}
    (secures : Action.Secures (site.terms few) excuse action post w)
    (about : site.About others fact) (inside : ∀ name, few name → names name)
    (beside : ∀ name, others name → names name) (apart : ∀ name, others name → ¬ few name)
    (holds : site.Holds w.disk) (now : fact w) :
    Action.Secures (site.terms names) excuse action (fun a w => post a w ∧ fact w) w := by
  have narrows : Task.Terms.Narrows (site.terms few) (site.terms names) :=
    { base := fun holds => holds
      rely := fun rely name own => rely name (inside name own)
      guarantee := fun alters => alters.mono inside }
  have kept : ∀ {w w' : World}, site.Holds w.disk → site.Alters few w.disk w'.disk →
      fact w → fact w' :=
    fun holds alters => about holds (holds.of_alters alters) fun name own =>
      alters.lookup_eq (apart name own)
  have framed := Task.Secures.frame secures narrows kept
    (fun holds later rely => about holds later fun name own => rely name (beside name own))
    holds now
  exact framed.mono fun result w _ both a same => ⟨both.1 a same, both.2⟩

end Site

end Job

end Slidecast
