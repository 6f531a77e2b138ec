import Slidecast.Number.Arithmetic

/-!
# The stages of a job

A job has five stages.  Each has a name that is shown to people and a share in the whole, in
percent; the shares make up a hundred.
-/

set_option autoImplicit false

namespace Slidecast.Progress

open Number

/-- A stage of a job. -/
inductive Stage where
  | pictures
  | transcript
  | playlist
  | subtitles
  | audio
  deriving DecidableEq

namespace Stage

/-- All stages in the order in which they are listed. -/
def all : List Stage := [.pictures, .transcript, .playlist, .subtitles, .audio]

/-- The name that is shown. -/
def title : Stage → String
  | .pictures => "Нормализация изображений"
  | .transcript => "Разбор выравнивания"
  | .playlist => "Генерация таймлайна"
  | .subtitles => "Генерация субтитров"
  | .audio => "Сборка аудио"

/-- The share in the whole, in percent. -/
def share : Stage → Nat
  | .pictures => 35
  | .transcript => 5
  | .playlist => 10
  | .subtitles => 10
  | .audio => 40

theorem mem_all (stage : Stage) : stage ∈ all := by cases stage <;> decide

/-- The shares make up a hundred. -/
theorem foldr_share : all.foldr (fun stage total => stage.share + total) 0 = 100 := rfl

end Stage

/-- The sum of shares.  No shares at all make a negative zero. -/
def sumOfShares (stages : List Stage) : Single :=
  stages.foldl (fun total stage => total + Binary.ofNat stage.share) (Binary.zero true)

/-- How much of a job is done, in percent, when the given stages are. -/
def percentDone (stages : List Stage) : Single :=
  (sumOfShares stages / sumOfShares Stage.all * 100).clamp 0 100

end Slidecast.Progress
