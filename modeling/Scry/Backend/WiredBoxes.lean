import Scry.Backend.BoxPipeline
import Scry.Registry.Attribution

/-! The boxes of a daemon with their streams, over whole runs.
Every box is wired once, when it is created, and all of them to one set of managers: the primary
box's streams are the global ones, which `start` wires with the global handlers, and any other
box's are its own, which are wired without them.
-/

namespace Scry

/-- A slot connected to the `playerProfile` signal of the set's `ZoneMgr`. -/
inductive ProfileSlot
  | groupMgr
  | player
  deriving DecidableEq

/-- `DaemonApp` with the streams that decode: the global four, and those that a box was given. -/
structure WiredDaemon (P : Type) where
  app : DaemonApp
  global : BoxStreams (BoxHandler P)
  own : Handle → Option (BoxStreams (BoxHandler P))
  profileSlots : List ProfileSlot

namespace WiredDaemon

variable {P : Type}

/-- `start`, whose manager set was built before: a call of `wireBoxPipeline` connects
`Player::player` to the set's profiles each time.
-/
def start (p : BoxPipeline P) (db : OpcodeDBs) : WiredDaemon P :=
  { app := .start
    global := p.wireBoxPipeline true (.fresh db)
    own := fun _ => none
    profileSlots := [.groupMgr, .player] }

/-- The wiring of `onBoxCreated`. -/
def onBoxCreated (p : BoxPipeline P) (db : OpcodeDBs) (w : WiredDaemon P) (box : Box)
    : WiredDaemon P :=
  if box.isPrimary then w
  else
    { w with
      own := Function.update w.own box.handle (some (p.wireBoxPipeline false (.fresh db)))
      profileSlots := w.profileSlots ++ [.player] }

def step (p : BoxPipeline P) (db : OpcodeDBs) (nameHash : String → UInt64) (op : DaemonOp)
    (w : WiredDaemon P)
    : WiredDaemon P :=
  let r := w.app.boxRegistry
  let next := { w with app := w.app.step nameHash op }
  match op with
  | .observe clientIp serverIp clientWorldPort serverWorldPort nowMs =>
      match r.lookupByWorld clientIp clientWorldPort serverWorldPort with
      | some _ => next
      | none =>
          next.onBoxCreated p db
            (r.created clientIp serverIp clientWorldPort serverWorldPort nowMs)
  | .evictStale nowMs ttlMs =>
      let victims := if ttlMs ≤ 0 then [] else r.boxes.filter (r.isVictim nowMs ttlMs)
      { next with own := fun h => if h ∈ victims.map Box.handle then none else w.own h }
  | _ => next

/-- The streams of a box; the primary one's are the global ones. -/
def streams (w : WiredDaemon P) (b : Box) : Option (BoxStreams (BoxHandler P)) :=
  if b.isPrimary then some w.global else w.own b.handle

/-- The handlers that a packet on a stream of a box fires. -/
def fired (w : WiredDaemon P) (b : Box) (id : EQStreamID) (call : DispatchCall)
    : List (BoxHandler P) :=
  match w.streams b with
  | none => []
  | some streams => ((streams id).dispatchCall call).fired

end WiredDaemon

-----------------------------------------------------------------------------------------
-- What leaves the boxes as they are
-----------------------------------------------------------------------------------------

/-- The same boxes are there, and none has been created. -/
structure BoxRegistry.SameBoxes (r t : BoxRegistry) : Prop where
  sessions : t.sessions = r.sessions
  nextHandle : t.nextHandle = r.nextHandle

namespace BoxRegistry

variable {nameHash : String → UInt64} {r : BoxRegistry}

theorem SameBoxes.refl (r : BoxRegistry) : r.SameBoxes r := ⟨rfl, rfl⟩

theorem SameBoxes.trans {s t : BoxRegistry} (first : r.SameBoxes s) (second : s.SameBoxes t)
    : r.SameBoxes t :=
  ⟨second.sessions.trans first.sessions, second.nextHandle.trans first.nextHandle⟩

theorem sameBoxes_promoteByName (h : Handle) (name : String)
    : r.SameBoxes (r.promoteByName nameHash h name) where
  sessions := sessions_promoteByName h name
  nextHandle := by
    rcases promoteByName_cases nameHash r h name with ⟨same, _⟩ | ⟨b, _, _, _, result⟩
    · rw [same]
    · rw [result]
      rfl

theorem sameBoxes_onDecodedPacket (h : Handle) (packet : DecodedPacket)
    : r.SameBoxes (NamePromoter.onDecodedPacket nameHash r h packet) where
  sessions := sessions_onDecodedPacket h packet
  nextHandle := by
    rcases onDecodedPacket_cases r h packet with same | ⟨b, _, _, _, result⟩
    · rw [same]
    · rw [result]
      rfl

theorem sameBoxes_setActiveCharacterId (id : BoxId)
    : r.SameBoxes (r.setActiveCharacterId id) where
  sessions := sessions_setActiveCharacterId id
  nextHandle := by
    simp only [setActiveCharacterId]
    split <;> rfl

theorem sameBoxes_update {h : Handle} {f : Box → Box} (same : ∀ b : Box, b.SameSession (f b))
    : r.SameBoxes (r.update h f) :=
  ⟨sessions_update same, rfl⟩

end BoxRegistry

namespace DaemonApp

open BoxRegistry (SameBoxes)

variable {nameHash : String → UInt64} {d : DaemonApp}

/-- Names touch no more than what boxes are called, by induction on the hooks that run. -/
theorem sameBoxes_resolved (fires : Box → Bool) (carrier : Handle) (name : String)
    : SameBoxes d.boxRegistry (d.resolved nameHash fires carrier name).boxRegistry := by
  rw [resolved]
  generalize listening : d.listeners carrier = boxes
  have begins
      : SameBoxes d.boxRegistry
          ({ d with carried := d.carried ++ [(carrier, name)] } : DaemonApp).boxRegistry :=
    .refl _
  revert begins
  generalize ({ d with carried := d.carried ++ [(carrier, name)] } : DaemonApp) = e
  clear listening
  intro begins
  induction boxes generalizing e with
  | nil => exact begins
  | cons box rest ih =>
      refine ih _ (begins.trans ?_)
      simp only [hook]
      split
      · exact BoxRegistry.sameBoxes_promoteByName box name
      · exact .refl _

/-- What neither shows a world session nor sweeps leaves the boxes as they are. -/
theorem sameBoxes_step (op : DaemonOp)
    (kept
      : match op with
        | .observe .. | .evictStale .. => False
        | _ => True)
    : SameBoxes d.boxRegistry (d.step nameHash op).boxRegistry := by
  cases op with
  | observe => exact kept.elim
  | enterWorld h packet => exact BoxRegistry.sameBoxes_onDecodedPacket h packet
  | setActiveCharacterId id => exact BoxRegistry.sameBoxes_setActiveCharacterId id
  | evictStale => exact kept.elim
  | zoneServerInfo h packet nowMs =>
      refine BoxRegistry.announce_invariant (I := SameBoxes d.boxRegistry) ?_ (.refl _) h packet
        nowMs
      exact fun _ _ _ same known =>
        known.trans (BoxRegistry.sameBoxes_update fun b => (same b).toSameSession)
  | zonePacket clientAddr packet nowMs =>
      refine BoxRegistry.dispatchZone_invariant (I := SameBoxes d.boxRegistry) ?_ (.refl _)
        clientAddr packet nowMs
      exact fun _ _ _ same known =>
        known.trans (BoxRegistry.sameBoxes_update fun b => (same b).toSameSession)
  | playerProfile carrier nameField => exact sameBoxes_resolved _ carrier _
  | identityNameResolved carrier name => exact sameBoxes_resolved _ carrier name
  | playerNameResolved carrier name => exact sameBoxes_resolved _ carrier name

end DaemonApp

-----------------------------------------------------------------------------------------
-- Every box is wired once
-----------------------------------------------------------------------------------------

namespace WiredDaemon

open BoxRegistry (SameBoxes)

variable {P : Type} {p : BoxPipeline P} {db : OpcodeDBs} {nameHash : String → UInt64}
  {w : WiredDaemon P}

/-- The streams of each box have been wired once, those of the primary one alone with the global
handlers; and the profiles' slots are as many as the boxes ever created, and one at least.
-/
structure WiredOnce (p : BoxPipeline P) (db : OpcodeDBs) (nameHash : String → UInt64)
    (w : WiredDaemon P)
    : Prop where
  wired : DaemonApp.Wired nameHash w.app
  global : w.global = p.wireBoxPipeline true (.fresh db)
  own
    : ∀ h, (h, false) ∈ w.app.boxRegistry.sessions →
        w.own h = some (p.wireBoxPipeline false (.fresh db))
  begun : w.app.boxRegistry.sessions = [] → w.app.boxRegistry.nextHandle = 0
  slots : w.profileSlots.count .player = max 1 w.app.boxRegistry.nextHandle

theorem wiredOnce_start : WiredOnce p db nameHash (start p db) where
  wired := DaemonApp.wired_start
  global := rfl
  own h member := by cases member
  begun _ := rfl
  slots := rfl

/-- Another state of the daemon with the same boxes. -/
theorem WiredOnce.withApp (once : WiredOnce p db nameHash w) {app : DaemonApp}
    (wired : DaemonApp.Wired nameHash app) (same : SameBoxes w.app.boxRegistry app.boxRegistry)
    : WiredOnce p db nameHash { w with app } where
  wired
  global := once.global
  own h member := once.own h (same.sessions ▸ member)
  begun none := same.nextHandle.trans (once.begun (same.sessions ▸ none))
  slots := once.slots.trans (by rw [same.nextHandle])

theorem WiredOnce.observe (once : WiredOnce p db nameHash w) (clientIp serverIp : UInt32)
    (clientWorldPort serverWorldPort : UInt16) (nowMs : Int)
    : WiredOnce p db nameHash
        (step p db nameHash (.observe clientIp serverIp clientWorldPort serverWorldPort nowMs)
          w) := by
  have wired :=
    once.wired.step (.observe clientIp serverIp clientWorldPort serverWorldPort nowMs)
  simp only [step]
  cases known : w.app.boxRegistry.lookupByWorld clientIp clientWorldPort serverWorldPort with
  | some hit =>
      refine once.withApp wired ?_
      simp only [DaemonApp.step, DaemonApp.observe, known, BoxRegistry.observe]
      exact BoxRegistry.sameBoxes_update fun b =>
        (BoxRegistry.sameIdentity_observed serverIp nowMs b).toSameSession
  | none =>
      have registry
          : (w.app.step nameHash
                (.observe clientIp serverIp clientWorldPort serverWorldPort nowMs)).boxRegistry
            = w.app.boxRegistry.append
                (w.app.boxRegistry.created clientIp serverIp clientWorldPort serverWorldPort
                  nowMs) := by
        simp only [DaemonApp.step, DaemonApp.observe, known,
          (DaemonApp.onBoxCreated_frame _ _).1, BoxRegistry.observe]
      have sessions
          : BoxRegistry.sessions
              (w.app.step nameHash
                (.observe clientIp serverIp clientWorldPort serverWorldPort nowMs)).boxRegistry
            = w.app.boxRegistry.sessions
              ++ [(w.app.boxRegistry.nextHandle, w.app.boxRegistry.boxes.isEmpty)] := by
        rw [registry]
        simp [BoxRegistry.sessions, BoxRegistry.append, BoxRegistry.created]
      have nextHandle
          : BoxRegistry.nextHandle
              (w.app.step nameHash
                (.observe clientIp serverIp clientWorldPort serverWorldPort nowMs)).boxRegistry
            = w.app.boxRegistry.nextHandle + 1 := by
        rw [registry]
        rfl
      have fresh (h : Handle) (member : (h, false) ∈ w.app.boxRegistry.sessions)
          : h ≠ w.app.boxRegistry.nextHandle := by
        obtain ⟨b, there, same⟩ := List.mem_map.mp member
        obtain rfl := congrArg Prod.fst same
        exact (once.wired.wellFormed.allocated b there).ne
      simp only [onBoxCreated]
      split
      · next primary =>
          have first : w.app.boxRegistry.boxes.isEmpty = true := primary
          have none : w.app.boxRegistry.sessions = [] := by
            rw [BoxRegistry.sessions, List.isEmpty_iff.mp first, List.map_nil]
          refine ⟨wired, once.global, fun h member => ?_, fun empty => ?_, ?_⟩
          · have only := sessions ▸ member
            simp [none, first] at only
          · have absurd := sessions ▸ empty
            simp at absurd
          · simp only [nextHandle, once.slots, once.begun none]
            rfl
      · next primary =>
          have first : w.app.boxRegistry.boxes.isEmpty = false := Bool.eq_false_iff.mpr primary
          have some : w.app.boxRegistry.nextHandle ≠ 0 := by
            have inhabited : w.app.boxRegistry.boxes ≠ [] := by simpa using first
            obtain ⟨b, there⟩ := List.exists_mem_of_ne_nil _ inhabited
            exact Nat.ne_zero_of_lt (once.wired.wellFormed.allocated b there)
          refine ⟨wired, once.global, fun h member => ?_, fun empty => ?_, ?_⟩
          · have either := sessions ▸ member
            simp only [List.mem_append, List.mem_singleton, Prod.mk.injEq] at either
            rcases either with old | ⟨rfl, _⟩
            · dsimp only
              exact (Function.update_of_ne (fresh h old) ..).trans (once.own h old)
            · exact Function.update_self ..
          · have absurd := sessions ▸ empty
            simp at absurd
          · simp only [List.count_append, once.slots, nextHandle, List.count_singleton_self]
            rw [Nat.max_eq_right (Nat.one_le_iff_ne_zero.mpr some), Nat.max_eq_right (by simp)]

theorem WiredOnce.evictStale (once : WiredOnce p db nameHash w) (nowMs ttlMs : Int)
    : WiredOnce p db nameHash (step p db nameHash (.evictStale nowMs ttlMs) w) := by
  have wired := once.wired.step (.evictStale nowMs ttlMs)
  by_cases off : ttlMs ≤ 0
  · have kept := once.withApp wired (by
      simp only [DaemonApp.step, DaemonApp.evictStale, BoxRegistry.evictStale, if_pos off]
      exact .refl _)
    simpa only [step, if_pos off, List.map_nil, List.not_mem_nil, if_false] using kept
  · have boxes
        : (w.app.step nameHash (.evictStale nowMs ttlMs)).boxRegistry.boxes
          = w.app.boxRegistry.boxes.filter
              fun b => !w.app.boxRegistry.isVictim nowMs ttlMs b := by
      simp only [DaemonApp.step, DaemonApp.evictStale, BoxRegistry.evictStale, if_neg off]
    have nextHandle
        : (w.app.step nameHash (.evictStale nowMs ttlMs)).boxRegistry.nextHandle
          = w.app.boxRegistry.nextHandle := by
      simp only [DaemonApp.step, DaemonApp.evictStale, BoxRegistry.evictStale, if_neg off]
    simp only [step, if_neg off]
    refine ⟨wired, once.global, fun h member => ?_, fun empty => ?_, ?_⟩
    · obtain ⟨b, there, same⟩ := List.mem_map.mp member
      rw [boxes, List.mem_filter] at there
      obtain ⟨rfl, primary⟩ := Prod.mk.inj same
      have spared : b.handle ∉
          (w.app.boxRegistry.boxes.filter (w.app.boxRegistry.isVictim nowMs ttlMs)).map
            Box.handle := by
        intro reaped
        obtain ⟨c, victim, handle⟩ := List.mem_map.mp reaped
        rw [List.mem_filter] at victim
        obtain rfl := once.wired.wellFormed.eq_of_handle victim.1 there.1 handle
        simp [victim.2] at there
      dsimp only
      rw [if_neg spared]
      exact once.own b.handle (List.mem_map.mpr ⟨b, there.1, by rw [primary]⟩)
    · rw [nextHandle]
      rw [BoxRegistry.sessions, List.map_eq_nil_iff, boxes, List.filter_eq_nil_iff] at empty
      have primary := once.wired.wellFormed.primaryFirst
      cases first : w.app.boxRegistry.boxes with
      | nil => exact once.begun (by rw [BoxRegistry.sessions, first, List.map_nil])
      | cons b rest =>
          rw [first] at primary
          have spared : w.app.boxRegistry.isVictim nowMs ttlMs b = false :=
            BoxRegistry.not_isVictim_of_isPrimary primary.1
          exact absurd (empty b (by simp [first])) (by simp [spared])
    · rw [once.slots, nextHandle]

theorem WiredOnce.step (once : WiredOnce p db nameHash w) (op : DaemonOp)
    : WiredOnce p db nameHash (step p db nameHash op w) := by
  have wired := once.wired.step op
  cases op with
  | observe clientIp serverIp clientWorldPort serverWorldPort nowMs =>
      exact once.observe clientIp serverIp clientWorldPort serverWorldPort nowMs
  | evictStale nowMs ttlMs => exact once.evictStale nowMs ttlMs
  | enterWorld => exact once.withApp wired (DaemonApp.sameBoxes_step _ trivial)
  | setActiveCharacterId => exact once.withApp wired (DaemonApp.sameBoxes_step _ trivial)
  | zoneServerInfo => exact once.withApp wired (DaemonApp.sameBoxes_step _ trivial)
  | zonePacket => exact once.withApp wired (DaemonApp.sameBoxes_step _ trivial)
  | playerProfile => exact once.withApp wired (DaemonApp.sameBoxes_step _ trivial)
  | identityNameResolved => exact once.withApp wired (DaemonApp.sameBoxes_step _ trivial)
  | playerNameResolved => exact once.withApp wired (DaemonApp.sameBoxes_step _ trivial)

/-- Every run leaves every box wired once. -/
theorem wiredOnce_exec (p : BoxPipeline P) (db : OpcodeDBs) (nameHash : String → UInt64)
    (ops : List DaemonOp)
    : WiredOnce p db nameHash
        (Machine.exec (WiredDaemon.step p db nameHash) (start p db) ops) :=
  Machine.exec_invariant wiredOnce_start (fun _ op once => once.step op) ops

/-- What a packet on a box's stream fires has to do with the box only by its being primary. -/
theorem WiredOnce.fired_eq (once : WiredOnce p db nameHash w) {b : Box}
    (member : b ∈ w.app.boxRegistry.boxes) {id : EQStreamID} {call : DispatchCall}
    (ends : BoxPipeline.Ends db id call)
    : w.fired b id call = BoxPipeline.expected (p.rows b.isPrimary) db id call := by
  have there : (b.handle, b.isPrimary) ∈ w.app.boxRegistry.sessions := List.mem_map_of_mem member
  rw [fired, streams]
  cases primary : b.isPrimary with
  | true =>
      simp only [if_true, once.global]
      exact p.fired_wireBoxPipeline true ends
  | false =>
      rw [primary] at there
      simp only [Bool.false_eq_true, if_false, once.own b.handle there]
      exact p.fired_wireBoxPipeline false ends

end WiredDaemon

end Scry
