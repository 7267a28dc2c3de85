import Namros.Source.GatewayAdmission

/-!
# Admission of gateway requests

A drain is complete when the last admitted write is released: the count of writes in flight is
exact in every state, and a state that is drained admits no write any more.
-/

namespace Namros.Guarantees

open Source

/-! ## Drains -/

structure DrainSound (sys : GatewayDrain) : Prop where
  counted : sys.controller.inFlightWrites = sys.writes.count false
  closed : sys.controller.closed = if sys.controller.state = .drained then 1 else 0
  idle : sys.controller.state = .drained → sys.controller.inFlightWrites = 0
  answered : none ∈ sys.answers → sys.controller.state = .drained

/-- The states follow each other, and no write joins those of a drained controller. -/
structure DrainsOn (sys after : GatewayDrain) : Prop where
  started : sys.controller.state ≠ .active → after.controller.state ≠ .active
  drained : sys.controller.state = .drained →
    after.controller.state = .drained ∧ after.writes = sys.writes

variable {sys : GatewayDrain}

open GatewayDrainController in
theorem DrainSound.step (sound : DrainSound sys) (event : GatewayDrainEvent) :
    DrainSound (sys.step event) ∧ DrainsOn sys (sys.step event) := by
  obtain ⟨counted, closed, idle, answered⟩ := sound
  cases event with
  | release i =>
    simp only [GatewayDrain.step]
    split
    · next unreleased =>
      obtain ⟨inside, here⟩ := List.getElem?_eq_some_iff.mp unreleased
      have some : 0 < sys.writes.count false :=
        List.count_pos_iff.mpr (List.mem_of_getElem? unreleased)
      have fewer : (sys.writes.set i true).count false = sys.writes.count false - 1 := by
        simp [List.count_set inside, here]
      simp only [finishWrite, settleLocked, markDrainedLocked]
      constructor <;> constructor <;> grind
    · exact ⟨⟨counted, closed, idle, answered⟩, id, fun drained => ⟨drained, rfl⟩⟩
  | select done =>
    simp only [GatewayDrain.step]
    cases done <;> constructor <;> constructor <;> grind
  | _ =>
    simp only [GatewayDrain.step, admitWrite, startDrain, settleLocked, markDrainedLocked]
    constructor <;> constructor <;> grind

/-- What a run keeps, and how it goes on. -/
theorem DrainSound.run (sound : DrainSound sys) (events : List GatewayDrainEvent) :
    DrainSound (events.foldl GatewayDrain.step sys) ∧
      DrainsOn sys (events.foldl GatewayDrain.step sys) := by
  induction events generalizing sys with
  | nil => exact ⟨sound, id, fun drained => ⟨drained, rfl⟩⟩
  | cons event events ih =>
    obtain ⟨next, first⟩ := sound.step event
    obtain ⟨final, rest⟩ := ih next
    refine ⟨final, fun started => rest.started (first.started started), fun drained => ?_⟩
    obtain ⟨still, same⟩ := first.drained drained
    exact ⟨(rest.drained still).1, (rest.drained still).2.trans same⟩

/-- The system in one state of a run, and in a later one. -/
structure DrainsOnce (sys after : GatewayDrain) : Prop extends DrainsOn sys after where
  counted : sys.controller.inFlightWrites = sys.writes.count false
  closed : sys.controller.closed ≤ 1
  /-- `WaitDrained` has returned nil. -/
  answered : none ∈ sys.answers →
    (∀ released ∈ sys.writes, released = true) ∧ after.writes = sys.writes

/-- Whatever the interleaving of `Admit`, releases, `StartDrain` and `WaitDrained`. -/
theorem drain_completes_once (events later : List GatewayDrainEvent) :
    DrainsOnce (events.foldl GatewayDrain.step {})
      (later.foldl GatewayDrain.step (events.foldl GatewayDrain.step {})) := by
  have start : DrainSound {} := ⟨rfl, rfl, nofun, nofun⟩
  obtain ⟨sound, -⟩ := start.run events
  generalize events.foldl GatewayDrain.step {} = sys at sound ⊢
  obtain ⟨-, on⟩ := sound.run later
  refine ⟨on, sound.counted, ?_, fun returned => ?_⟩
  · rw [sound.closed]
    split <;> simp
  have drained := sound.answered returned
  have none := List.count_eq_zero.mp (sound.counted.symm.trans (sound.idle drained))
  refine ⟨fun released member => ?_, (on.drained drained).2⟩
  cases released with
  | false => exact absurd member none
  | true => rfl

end Namros.Guarantees
