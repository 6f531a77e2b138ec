import Slidecast.Speech.Exchange
import Slidecast.Slideshow.Playlist
import Slidecast.Subtitle.Keeping
import Slidecast.Audio.Assembly
import Slidecast.Picture.Frame
import Slidecast.Tool.Inquiry
import Slidecast.Tool.Rehearsal
import Slidecast.Tool.Version
import Slidecast.Project.Exchange
import Slidecast.Settings.Exchange
import Slidecast.Job.Preparation
import Slidecast.Tool.System
import Slidecast.Proofs.Number.Order
import Slidecast.Proofs.Number.Notation
import Slidecast.Proofs.Number.Rounding
import Slidecast.Proofs.Number.Arithmetic
import Slidecast.Proofs.Number.Places
import Slidecast.Proofs.Speech.Soundness
import Slidecast.Proofs.Speech.Runs
import Slidecast.Proofs.Speech.Acceptance
import Slidecast.Proofs.Slideshow.Points
import Slidecast.Proofs.Slideshow.Cuts
import Slidecast.Proofs.Slideshow.MarkerCuts
import Slidecast.Proofs.Slideshow.EvenCuts
import Slidecast.Proofs.Slideshow.Reading
import Slidecast.Proofs.Slideshow.Durations
import Slidecast.Proofs.Slideshow.Gaps
import Slidecast.Proofs.Slideshow.Length
import Slidecast.Proofs.Slideshow.Timing
import Slidecast.Proofs.Files.Walk
import Slidecast.Proofs.Files.Paths
import Slidecast.Proofs.Files.Making
import Slidecast.Proofs.Files.Touching
import Slidecast.Proofs.Files.Layout
import Slidecast.Proofs.Files.Removal
import Slidecast.Proofs.Interference
import Slidecast.Proofs.Tool.Careful
import Slidecast.Proofs.Job.Site
import Slidecast.Proofs.Job.Names
import Slidecast.Proofs.Job.Branches
import Slidecast.Proofs.Job.Completion
import Slidecast.Proofs.Job.Opening
import Slidecast.Proofs.Job.Failure
import Slidecast.Proofs.Job.Success
import Slidecast.Proofs.Files.Discarding
import Slidecast.Proofs.Audio.Outcome
import Slidecast.Proofs.Number.Shortest
import Slidecast.Proofs.Audio.Reading
import Slidecast.Proofs.Audio.Call
import Slidecast.Proofs.Picture.Batch
import Slidecast.Proofs.Sparing
import Slidecast.Proofs.Files.Provision
import Slidecast.Proofs.Files.Reaching
import Slidecast.Proofs.Picture.Pairing
import Slidecast.Proofs.Picture.Cropping
import Slidecast.Proofs.Picture.SameShape
import Slidecast.Proofs.Progress.Shares
import Slidecast.Proofs.Progress.Told
import Slidecast.Proofs.Posting
import Slidecast.Proofs.Job.Posts
import Slidecast.Proofs.Progress.Finished
import Slidecast.Proofs.Job.Notices
import Slidecast.Proofs.Recording
import Slidecast.Proofs.Job.Concurrent
import Slidecast.Proofs.Subtitle.Groups
import Slidecast.Proofs.Subtitle.Reading
import Slidecast.Proofs.Subtitle.Highlights
import Slidecast.Proofs.Subtitle.Cues
import Slidecast.Proofs.Subtitle.Dealing
import Slidecast.Proofs.Number.Fixed
import Slidecast.Proofs.Slideshow.Decoding
import Slidecast.Proofs.Progress.Totals
import Slidecast.Proofs.Progress.Registration
import Slidecast.Proofs.Tracing
import Slidecast.Proofs.Job.Scheduling
import Slidecast.Proofs.Job.Refusals
import Slidecast.Proofs.Audio.Delay
import Slidecast.Proofs.Project.Background
import Slidecast.Proofs.Sequence
import Slidecast.Proofs.Speech.Offence
import Slidecast.Proofs.Json.Quoted
import Slidecast.Proofs.Json.Numeral
import Slidecast.Proofs.Json.Reading
import Slidecast.Proofs.Json.Record
import Slidecast.Proofs.Speech.Exchange
import Slidecast.Proofs.Json.Digits
import Slidecast.Proofs.Audio.Wiring
import Slidecast.Proofs.Subtitle.Hundredths
import Slidecast.Proofs.Text.Pattern
import Slidecast.Proofs.Tool.Version
