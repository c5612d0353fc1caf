import Scry.Backend.WireTable
import Scry.Backend.WiredBoxes

/-! Which boxes feed what the whole daemon shares, and how often a packet is applied. -/

namespace Scry
namespace WiredDaemon

open BoxPipeline (Ends expected)

variable {P : Type} {p : BoxPipeline P} {db : OpcodeDBs} {nameHash : String → UInt64}
  {w : WiredDaemon P}

-----------------------------------------------------------------------------------------
-- Global handlers
-----------------------------------------------------------------------------------------

/-- A packet on a stream of the active character's current box runs the global handlers that are
registered for it once each, and one on a stream of another character's box runs none.
-/
def SinksFollow (p : BoxPipeline P) (db : OpcodeDBs) (w : WiredDaemon P) : Prop :=
  ∀ b ∈ w.app.boxRegistry.boxes, ∀ id call, Ends db id call →
    (w.app.boxRegistry.currentBoxFor w.app.boxRegistry.activeCharacterId = some b.handle →
      ∀ s ∈ expected p.sinks db id call, (sinksOf (w.fired b id call)).count s = 1)
    ∧ (b.boxId ≠ w.app.boxRegistry.activeCharacterId → sinksOf (w.fired b id call) = [])

/-- Some packet has a global handler. -/
def Feeds (p : BoxPipeline P) (db : OpcodeDBs) : Prop :=
  ∃ id call, Ends db id call ∧ expected p.sinks db id call ≠ []

/-- No box but the primary one is the active character's current box, and the primary box is the
active character's.
-/
def PrimaryPlays (r : BoxRegistry) : Prop :=
  ∀ b ∈ r.boxes,
    (r.currentBoxFor r.activeCharacterId = some b.handle → b.isPrimary = true)
    ∧ (b.isPrimary = true → b.boxId = r.activeCharacterId)

theorem WiredOnce.sinksOf_fired (once : WiredOnce p db nameHash w) {b : Box}
    (member : b ∈ w.app.boxRegistry.boxes) {id : EQStreamID} {call : DispatchCall}
    (ends : Ends db id call)
    : sinksOf (w.fired b id call) = if b.isPrimary then expected p.sinks db id call else [] := by
  rw [once.fired_eq member ends, p.sinksOf_expected]

/-- After any run, the global handlers follow the active character exactly if the opcode table
has no row for them or the character plays in the primary box.
-/
theorem sinks_follow_iff (p : BoxPipeline P) (db : OpcodeDBs) (nameHash : String → UInt64)
    (ops : List DaemonOp)
    : let w := Machine.exec (WiredDaemon.step p db nameHash) (start p db) ops
      SinksFollow p db w ↔ (Feeds p db → PrimaryPlays w.app.boxRegistry) := by
  intro w
  have once : WiredOnce p db nameHash w := wiredOnce_exec p db nameHash ops
  constructor
  · rintro follow ⟨id, call, ends, fed⟩ b member
    obtain ⟨current, other⟩ := follow b member id call ends
    rw [once.sinksOf_fired member ends] at current other
    refine ⟨fun live => ?_, fun primary => ?_⟩
    · obtain ⟨s, meant⟩ := List.exists_mem_of_ne_nil _ fed
      have ran := current live s meant
      by_contra secondary
      simp [secondary] at ran
    · by_contra elsewhere
      exact fed (by simpa [primary] using other elsewhere)
  · intro plays b member id call ends
    rw [once.sinksOf_fired member ends]
    rcases eq_or_ne (expected p.sinks db id call) [] with none | fed
    · simp [none]
    · obtain ⟨current, own⟩ := plays ⟨id, call, ends, fed⟩ b member
      refine ⟨fun live s meant => ?_, fun elsewhere => ?_⟩
      · rw [if_pos (current live)]
        exact List.count_eq_one_of_mem (BoxPipeline.nodup_expected p.sinks_nodup db id call) meant
      · rw [if_neg fun primary => elsewhere (own primary)]

/-- A table whose only row is the live backend's for the time of day. -/
def clockTable : OpcodeDBs
  | .SP_World => .empty
  | .SP_Zone =>
      .add .empty
        { opcode := 0xe7bb
          name := "OP_TimeOfDay"
          payloads := [
            { typeName := "timeOfDayStruct"
              typeSize := 8
              sizeCheckType := .match
              dir := DIR_Server }] }

/-- `OP_EnterWorld` of one character. -/
def enterAlpha : DecodedPacket :=
  { data := [65, 108, 112, 104, 97, 0], len := 72, dir := DIR_Client, entry := "OP_EnterWorld" }

/-- A character enters the world, and zones on a new world socket. -/
def rezoned : List DaemonOp :=
  [.observe 0x0a0d0008 0x0a0d00cd 1000 9016 10,
    .enterWorld 0 enterAlpha,
    .observe 0x0a0d0008 0x0a0d00cd 1001 9016 20,
    .enterWorld 1 enterAlpha]

/-- The time of day is lost from then on. -/
theorem clock_lost
    : ¬ ∀ ops,
        SinksFollow .live clockTable
          (Machine.exec (WiredDaemon.step .live clockTable BoxRegistry.sampleHash)
            (start .live clockTable) ops) := by
  intro follow
  have once := wiredOnce_exec BoxPipeline.live clockTable BoxRegistry.sampleHash rezoned
  obtain ⟨b, member, live, secondary⟩
      : ∃ b ∈ (Machine.exec (WiredDaemon.step .live clockTable BoxRegistry.sampleHash)
            (start .live clockTable) rezoned).app.boxRegistry.boxes,
          (Machine.exec (WiredDaemon.step .live clockTable BoxRegistry.sampleHash)
              (start .live clockTable) rezoned).app.boxRegistry.currentBoxFor
              (Machine.exec (WiredDaemon.step .live clockTable BoxRegistry.sampleHash)
                (start .live clockTable) rezoned).app.boxRegistry.activeCharacterId
            = some b.handle
          ∧ b.isPrimary = false := by
    decide
  have ends : Ends clockTable .zone2client ⟨0xe7bb, [], 8⟩ := by
    intro row found payload listed
    obtain rfl : 0 = row := Option.some.inj found
    obtain rfl := List.mem_singleton.mp listed
    decide
  have meant
      : .timeOfDay ∈ expected BoxPipeline.live.sinks clockTable .zone2client ⟨0xe7bb, [], 8⟩ := by
    decide
  have ran := (follow rezoned b member .zone2client _ ends).1 live .timeOfDay meant
  rw [once.sinksOf_fired member ends, secondary] at ran
  cases ran

-----------------------------------------------------------------------------------------
-- Packets and profiles
-----------------------------------------------------------------------------------------

/-- A packet on a box's stream runs each registration of its handlers once, and a profile that
one of them decodes runs `Player::player` once.
-/
def AppliedOnce (p : BoxPipeline P) (db : OpcodeDBs) (w : WiredDaemon P) : Prop :=
  ∀ b ∈ w.app.boxRegistry.boxes,
    (∀ id call, Ends db id call →
      managersOf (w.fired b id call) = expected p.perBox db id call)
    ∧ w.profileSlots.count .player = 1

/-- After any run, packets are applied once exactly if no second box has ever been created. -/
theorem applied_once_iff (p : BoxPipeline P) (db : OpcodeDBs) (nameHash : String → UInt64)
    (ops : List DaemonOp)
    : let w := Machine.exec (WiredDaemon.step p db nameHash) (start p db) ops
      AppliedOnce p db w ↔ w.app.boxRegistry.nextHandle ≤ 1 := by
  intro w
  have once : WiredOnce p db nameHash w := wiredOnce_exec p db nameHash ops
  constructor
  · intro applied
    cases boxes : w.app.boxRegistry.boxes with
    | nil =>
        have begun := once.begun (by rw [BoxRegistry.sessions, boxes, List.map_nil])
        exact begun.le.trans (Nat.zero_le 1)
    | cons b rest =>
        have slots := (applied b (by simp [boxes])).2
        rw [once.slots] at slots
        exact (Nat.le_max_right 1 _).trans slots.le
  · intro single b member
    refine ⟨fun id call ends => ?_, ?_⟩
    · rw [once.fired_eq member ends, p.managersOf_expected]
    · rw [once.slots]
      exact Nat.max_eq_left single

/-- From the second world socket on, each profile is applied twice. -/
theorem profile_twice
    : ¬ ∀ ops,
        AppliedOnce .live clockTable
          (Machine.exec (WiredDaemon.step .live clockTable BoxRegistry.sampleHash)
            (start .live clockTable) ops) := by
  intro applied
  have once := wiredOnce_exec BoxPipeline.live clockTable BoxRegistry.sampleHash rezoned
  obtain ⟨b, member⟩
      : ∃ b, b ∈ (Machine.exec (WiredDaemon.step .live clockTable BoxRegistry.sampleHash)
          (start .live clockTable) rezoned).app.boxRegistry.boxes :=
    ⟨_, List.mem_cons_self⟩
  have slots := (applied rezoned b member).2
  rw [once.slots] at slots
  revert slots
  decide

end WiredDaemon
end Scry
