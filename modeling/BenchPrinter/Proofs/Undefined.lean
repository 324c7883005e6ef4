import BenchPrinter.Proofs.Answering

/-!
A room without a temperature. A double that is no number spoils whatever is computed with it and
compares with nothing. In a room with such a temperature every update takes the temperature of a
heater away, and no wait for that heater ends.
-/

namespace BenchPrinter

namespace Double

open Float.Model Float.Model.UnpackedFloat

/-- The double is not a number. -/
def Undefined (value : Float) : Prop := unpacked value = .notANumber

namespace Undefined

variable {undefined : Float}

theorem pack_notANumber : unpacked (pack .notANumber) = .notANumber := by
  have canonical : Canonical .notANumber := trivial
  exact unpacked_pack canonical

theorem add (isUndefined : Undefined undefined) (value : Float) :
    Undefined (undefined + value) := by
  change unpacked (pack (UnpackedFloat.add Format.binary64 (unpacked undefined)
    (unpacked value))) = _
  rw [show unpacked undefined = _ from isUndefined]
  exact pack_notANumber

theorem sub (isUndefined : Undefined undefined) (value : Float) :
    Undefined (undefined - value) := by
  change unpacked (pack (UnpackedFloat.sub Format.binary64 (unpacked undefined)
    (unpacked value))) = _
  rw [show unpacked undefined = _ from isUndefined]
  exact pack_notANumber

theorem abs (isUndefined : Undefined undefined) : Undefined undefined.abs := by
  change unpacked (pack (unpacked undefined).abs) = _
  rw [show unpacked undefined = _ from isUndefined]
  exact pack_notANumber

theorem compare (isUndefined : Undefined undefined) (value : Float) :
    (unpacked undefined).compare (unpacked value) = none ∧
      (unpacked value).compare (unpacked undefined) = none := by
  rw [show unpacked undefined = _ from isUndefined]
  cases unpacked value <;> exact ⟨rfl, rfl⟩

theorem not_lt (isUndefined : Undefined undefined) (value : Float) : ¬ undefined < value := by
  rw [lt_iff_compare, (isUndefined.compare value).1]
  simp

theorem not_ge (isUndefined : Undefined undefined) (value : Float) : ¬ value ≤ undefined := by
  rw [le_iff_compare, (isUndefined.compare value).2]
  simp

end Undefined

end Double

open Double (Undefined)

namespace Board

/-- Neither the room nor the heater has a temperature. -/
structure Adrift (id : HeaterId) (board : Board Float) : Prop where
  room : Undefined board.room
  value : Undefined (board.heater id).value

variable {id : HeaterId} {board : Board Float}

/-- An update takes the temperature of a heater away. -/
theorem adrift_tick (room : Undefined board.room)
    (lost : ((board.heater id).value == 0.0) = true ∨ Undefined (board.heater id).value) :
    board.tick.Adrift id := by
  refine ⟨room, ?_⟩
  have update := (board.tick_advances id).update
  generalize (board.heater id).value = value at lost update
  generalize (board.tick.heater id).value = after at update ⊢
  cases update with
  | initialized => exact room.add _
  | heating warm => exact (lost.resolve_left (by simp [warm])).add _
  | cooling warm => exact (lost.resolve_left (by simp [warm])).sub _
  | settled _ warm _ _ near =>
      have value := lost.resolve_left (by simp [warm])
      exact absurd near ((value.sub _).abs.not_lt _)
  | approachingFromBelow warm => exact (lost.resolve_left (by simp [warm])).add _
  | approachingFromAbove warm => exact (lost.resolve_left (by simp [warm])).sub _

theorem Adrift.tick (adrift : board.Adrift id) : board.tick.Adrift id :=
  adrift_tick adrift.room (.inr adrift.value)

theorem Adrift.unsettled (adrift : board.Adrift id) : board.isSettled id = false := by
  have undefined : Undefined (board.printer.heaters.get id).value := adrift.value
  simp only [isSettled, Heater.isSettled, decide_eq_false (undefined.not_ge _), Bool.false_and]

/-- Adrift, a wait never ends. -/
theorem Adrift.not_settles (adrift : board.Adrift id) (final : Board Float) :
    ¬ Settles id board final := by
  intro settles
  have kept : final.Adrift id := settles.keeps (Adrift id) (fun _ => Adrift.tick) adrift
  exact absurd settles.settled (by simp [kept.unsettled])

/-- In a room without a temperature a blocking heat is answered at once or never. -/
theorem HeatsTo.answered_in_undefined_room {σ : Type} {host : Host σ} {good : σ → Prop} {state : σ}
    (willing : host.Willing good) (start : good state) {line : String} {target : Float}
    (heats : HeatsTo line id target) (room : Undefined board.room)
    (lost : ((board.heater id).value == 0.0) = true ∨ Undefined (board.heater id).value) :
    (∃ attempt, Completes host line board state attempt) ↔
      (board.aim id target).isSettled id = true := by
  obtain ⟨waits, steps⟩ := heats.waitsFor board
  rw [completes_iff_endsWait willing line board start, waits, steps]
  have sameRoom : (board.aim id target).room = board.room := rfl
  have sameValue : ((board.aim id target).heater id).value = (board.heater id).value := by
    rw [aim_heater]
  rw [← sameRoom] at room
  rw [← sameValue] at lost
  generalize board.aim id target = aimed at room lost ⊢
  constructor
  · rintro ⟨final, settles⟩
    cases settles with
    | reached settled => exact settled
    | later _ later =>
        rw [round_eq_ticks] at later
        exact absurd later ((adrift_tick room lost).tick.not_settles final)
  · intro settled
    exact ⟨_, .reached settled⟩

end Board

end BenchPrinter
