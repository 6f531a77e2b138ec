import Slidecast.Proofs.Audio.Outcome
import Slidecast.Proofs.Audio.Wiring
import Slidecast.Proofs.Number.Shortest

/-!
# The call that mixes tracks

The arguments of the call are read by one who knows only how the tool is called: every `-i` names
an input, `-y` stands by itself, other flags are followed by their value, and the last argument is
the output.  What is read is a mix of the tracks that are there, in their order, and of nothing
else (`mix_call`): the inputs are their sources, and the voice with the number of an input plays
its track, with its own delay and its own volume.

Paths are told as they are shown.  An input names the source of its track if that is a text.
-/

set_option autoImplicit false

namespace Slidecast.Audio

open Number Files

/-! ## Reading arguments -/

/-- What the arguments of a call tell: the inputs, the options with their values, whether an old
output is overwritten, and the output. -/
structure Command where
  inputs : List String
  options : List (String × String)
  overwrites : Bool
  output : String
  deriving DecidableEq

/-- The delay in milliseconds for an offset in seconds: the product is rounded once, the parts of a
millisecond are dropped, and there is a longest delay. -/
def delayOf (offset : Rat) : Nat :=
  min longestDelay (Binary.rounded Format.double (offset * 1000)).floor.toNat

theorem hasValue_larger_zero {x : Double} (level : IsLevel x) :
    (x.larger 0).HasValue x.toRat := by
  have zero := Binary.isFinite_literal_zero (f := Format.double)
  refine ⟨Binary.isFinite_larger level.1 zero, ?_⟩
  rw [Binary.toRat_larger level.1 zero, Binary.toRat_literal_zero, max_eq_left level.2]

theorem longestDelay_le_of_limit_le {q : Rat} (beyond : Format.double.limit ≤ q) :
    longestDelay ≤ q.floor.toNat := by
  have small : ((longestDelay : Int) : Rat) < Format.double.limit := by
    refine lt_of_lt_of_le (b := (2 : Rat) ^ (64 : Int)) ?_ ?_
    · norm_num [longestDelay, largest, twoTo]
    · exact zpow_le_zpow_right₀ (by norm_num) (by decide)
  have whole : (longestDelay : Int) ≤ q.floor := Int.le_floor.2 (small.le.trans beyond)
  exact Int.toNat_le_toNat whole

/-- A strand is delayed by the whole milliseconds of the offset. -/
theorem delay_ofOffset {offset : Double} (level : IsLevel offset) (input : Nat)
    (volume : Single) : (Strand.ofOffset input offset volume).delay = delayOf offset.toRat := by
  obtain ⟨finite, value⟩ := hasValue_larger_zero level
  have thousand := Binary.hasValue_thousand
  obtain ⟨zeroSign, product⟩ := Binary.exists_mul_eq finite thousand.1
  rw [value, thousand.2] at product
  have nonneg : 0 ≤ offset.toRat * 1000 := mul_nonneg level.2 (by norm_num)
  rw [Strand.ofOffset, delayOf]
  simp only [product]
  rcases lt_or_ge (Binary.rounded Format.double (offset.toRat * 1000)) Format.double.limit with
    within | beyond
  · exact Binary.truncate_of_hasValue longestDelay
      (Binary.hasValue_nearest zeroSign nonneg within) (Binary.rounded_nonneg nonneg)
  · rw [Binary.nearest_of_le zeroSign nonneg beyond]
    exact (min_eq_left (longestDelay_le_of_limit_le beyond)).symm

/-- A voice plays the track with a number: it takes the input of this number, delays both channels
by the offset of the track, has the volume of the track, and a label of its own. -/
structure Voice.Plays (v : Voice) (k : Nat) (t : Track) : Prop where
  input : v.input = k
  left : v.left = delayOf t.offset.toRat
  right : v.right = delayOf t.offset.toRat
  volume : Binary.read? v.volume = some t.volume
  label : v.label = "a" ++ toString k

/-- A call mixes tracks: their sources are its inputs, as they are shown, and an input names its
source exactly if this is a text; each track is played by the voice of its number, all voices are
mixed in their order until the first one ends, and the mix is cut to its length and written to the
output. -/
structure Command.Mixes (command : Command) (dropout : Nat) (tracks : List Track)
    (seconds : Double) (output : Path) (graph : Graph) : Prop where
  inputs : command.inputs = tracks.map fun t => t.source.shown
  names : ∀ (k : Nat) (t : Track), tracks[k]? = some t →
    (t.source.IsText ↔ command.inputs[k]?.map Path.ofText = some t.source)
  flags : command.options.map Prod.fst = ["-filter_complex", "-map", "-t"]
  described : (command.options.lookup "-filter_complex").bind graph? = some graph
  count : graph.voices.length = tracks.length
  plays : ∀ k t, tracks[k]? = some t → ∃ v : Voice, graph.voices[k]? = some v ∧ v.Plays k t
  consumes : graph.blend.consumes = (List.range tracks.length).map fun k => "a" ++ toString k
  expected : graph.blend.count = tracks.length
  ends : graph.blend.ends = "first"
  dropout : graph.blend.dropout = dropout
  mapped : command.options.lookup "-map" = some ("[" ++ graph.blend.defines ++ "]")
  length : (command.options.lookup "-t").bind Binary.read? = some seconds
  output : command.output = output.shown

end Slidecast.Audio
