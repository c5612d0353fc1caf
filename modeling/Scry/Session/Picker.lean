import Scry.Registry.Invariants
import Scry.Session.Feeds

/-! The box picker that clients hold: the characters of the registry and the active one.
The registry signals most of what it does, some of it twice, and an adapter sends the whole list
on each signal, as the registry is at that moment.
-/

namespace Scry

/-- An entry of the picker. What is not set is left at its default. -/
structure BoxMeta where
  boxId : BoxId
  displayName : String
  clientIp : Option UInt32
  packetCount : UInt32
  zone : String
  level : UInt32
  deriving DecidableEq

/-- `BoxListUpdated`. -/
structure BoxListUpdated where
  boxes : List BoxMeta
  activeBoxId : BoxId
  deriving DecidableEq

/-- The bodies that matter here. -/
inductive PickerBody
  | other
  | boxListUpdated (list : BoxListUpdated)
  deriving DecidableEq

/-- What `sendBoxList` reads: the registry, and of the managers that all boxes share the zone's
short name and the player's level.
-/
structure PickerSource where
  registry : BoxRegistry
  shortZoneName : String
  level : UInt8
  deriving DecidableEq

/-- What happens to it. -/
inductive PickerOp
  | registry (op : RegistryOp)
  | notifyChanged
  | decoded (shortZoneName : String) (level : UInt8)

namespace BoxRegistry

variable (nameHash : String → UInt64)

-----------------------------------------------------------------------------------------
-- The signals of the registry
-----------------------------------------------------------------------------------------

/-- The registry at each `changed()` of `promoteByName`: the first is the one of `onPromoted`. -/
def promoteByNameChanged (r : BoxRegistry) (h : Handle) (name : String) : List BoxRegistry :=
  match r.box? h with
  | none => []
  | some b =>
      if name = "" then []
      else if b.displayName = name then []
      else [promote nameHash r b name, r.promoteByName nameHash h name]

/-- The registry at each `changed()` of a packet that may carry a name. -/
def onDecodedPacketChanged (r : BoxRegistry) (h : Handle) (packet : DecodedPacket)
    : List BoxRegistry :=
  if packet.entry ≠ some "OP_EnterWorld" then []
  else if packet.dir ≠ DIR_Client then []
  else if packet.len ≠ NamePromoter.kEnterWorldClientLen then []
  else
    let name := NamePromoter.characterName packet.data
    match r.box? h with
    | none => []
    | some b =>
        if b.displayName ≠ "" then []
        else if name = "" then []
        else [r.promote nameHash b name]

/-- The registry at each `changed()` of `evictStale`. -/
def evictStaleChanged (r : BoxRegistry) (nowMs ttlMs : Int) : List BoxRegistry :=
  if ttlMs ≤ 0 then []
  else if r.boxes.filter (r.isVictim nowMs ttlMs) = [] then []
  else [r.evictStale nowMs ttlMs]

/-- The registry at each `changed()` of an operation. -/
def changed (op : RegistryOp) (r : BoxRegistry) : List BoxRegistry :=
  match op with
  | .observe clientIp serverIp clientWorldPort serverWorldPort nowMs =>
      match r.lookupByWorld clientIp clientWorldPort serverWorldPort with
      | some _ => []
      | none => [r.observe clientIp serverIp clientWorldPort serverWorldPort nowMs]
  | .enterWorld h packet => r.onDecodedPacketChanged nameHash h packet
  | .promoteByName h name => r.promoteByNameChanged nameHash h name
  | .setActiveCharacterId id =>
      match r.findById id with
      | none => []
      | some _ => if r.activeCharacterId = id then [] else [r.setActiveCharacterId id]
  | .evictStale nowMs ttlMs => r.evictStaleChanged nowMs ttlMs
  | .zoneServerInfo _ _ _ => []
  | .zonePacket _ _ _ => []

end BoxRegistry

namespace PickerSource

/-- The loop of `sendBoxList`. The managers of a character are those of its current box. -/
def boxMeta (s : PickerSource) (c : Character) : BoxMeta :=
  let session := s.registry.box? c.session
  let managers := (s.registry.currentBoxFor c.id).bind s.registry.box?
  { boxId := c.id
    displayName := c.name
    clientIp := session.map Box.clientIp
    packetCount := (session.map fun b => b.packetCount.toUInt32).getD 0
    zone := if managers.isSome then s.shortZoneName else ""
    level := if managers.isSome ∧ c.name ≠ "" then s.level.toUInt32 else 0 }

/-- `sendBoxList`. -/
def sendBoxList (s : PickerSource) : BoxListUpdated :=
  { boxes := s.registry.characters.map s.boxMeta
    activeBoxId := s.registry.activeCharacterId }

def step (nameHash : String → UInt64) (op : PickerOp) (s : PickerSource) : PickerSource :=
  match op with
  | .registry op => { s with registry := s.registry.step nameHash op }
  | .notifyChanged => s
  | .decoded shortZoneName level => { s with shortZoneName, level }

/-- A list is sent on each `changed()`. -/
def sends (nameHash : String → UInt64) (op : PickerOp) (s : PickerSource) : List PickerBody :=
  match op with
  | .registry op =>
      (s.registry.changed nameHash op).map fun registry =>
        .boxListUpdated { s with registry }.sendBoxList
  | .notifyChanged => [.boxListUpdated s.sendBoxList]
  | .decoded _ _ => []

/-- The constructor of an adapter connects `changed()`. -/
def feed (nameHash : String → UInt64) : FeedSource PickerSource PickerOp PickerBody where
  step := step nameHash
  sends := sends nameHash
  early body := body != .other
  snapshot _ := .other
  initial s := [.boxListUpdated s.sendBoxList]

/-- Before the first packet. -/
def fresh (shortZoneName : String) (level : UInt8) : PickerSource :=
  { registry := .empty, shortZoneName, level }

end PickerSource

/-- The list a client holds after another body. -/
def heldList (held : Option BoxListUpdated) : PickerBody → Option BoxListUpdated
  | .other => held
  | .boxListUpdated list => some list

-----------------------------------------------------------------------------------------
-- The picture of a registry
-----------------------------------------------------------------------------------------

/-- What a picker shows of a registry: the characters with the addresses of their sessions, and
the active one.
-/
structure PickerPicture where
  entries : List (BoxId × String × Option UInt32)
  active : BoxId
  deriving DecidableEq

/-- What a list shows. -/
def BoxListUpdated.picture (list : BoxListUpdated) : PickerPicture :=
  { entries := list.boxes.map fun entry => (entry.boxId, entry.displayName, entry.clientIp)
    active := list.activeBoxId }

namespace BoxRegistry

variable {nameHash : String → UInt64} {r : BoxRegistry}

def picture (r : BoxRegistry) : PickerPicture :=
  { entries :=
      r.characters.map fun c => (c.id, c.name, (r.box? c.session).map Box.clientIp)
    active := r.activeCharacterId }

theorem picture_sendBoxList (s : PickerSource) : s.sendBoxList.picture = s.registry.picture := by
  simp [PickerSource.sendBoxList, BoxListUpdated.picture, picture, PickerSource.boxMeta,
    Function.comp_def]

/-- A write that leaves a box its session leaves the picture as it is. -/
theorem picture_update {h : Handle} {f : Box → Box} (same : ∀ b : Box, b.SameIdentity (f b))
    : (r.update h f).picture = r.picture := by
  have address (other : Handle)
      : ((r.update h f).box? other).map Box.clientIp = (r.box? other).map Box.clientIp := by
    have handles (b : Box) : (if b.handle = h then f b else b).handle = b.handle := by
      split
      · exact (same b).handle
      · rfl
    have addresses (b : Box) : (if b.handle = h then f b else b).clientIp = b.clientIp := by
      split
      · exact congrArg Prod.fst (same b).worldTuple
      · rfl
    simp only [box?, update, List.find?_map, Function.comp_def, handles, Option.map_map,
      addresses]
  simp only [picture, address]
  rfl

/-- A sweep without a victim does nothing. -/
theorem evictStale_of_none {nowMs ttlMs : Int}
    (none : r.boxes.filter (r.isVictim nowMs ttlMs) = [])
    : r.evictStale nowMs ttlMs = r := by
  have kept : (r.boxes.filter fun b => !r.isVictim nowMs ttlMs b) = r.boxes := by
    rw [List.filter_eq_self]
    intro b member
    simpa using List.filter_eq_nil_iff.mp none b member
  unfold evictStale
  split
  · rfl
  · simp [none, kept]

/-- An operation signals last what it has come to, or does not show. -/
theorem changed_spec (op : RegistryOp) (r : BoxRegistry)
    : (r.changed nameHash op = [] ∧ (r.step nameHash op).picture = r.picture)
      ∨ ∃ earlier, r.changed nameHash op = earlier ++ [r.step nameHash op] := by
  cases op with
  | observe clientIp serverIp clientWorldPort serverWorldPort nowMs =>
      simp only [changed, step, observe]
      cases r.lookupByWorld clientIp clientWorldPort serverWorldPort with
      | none => exact Or.inr ⟨[], rfl⟩
      | some hit => exact Or.inl ⟨rfl, picture_update (sameIdentity_observed serverIp nowMs)⟩
  | enterWorld h packet =>
      simp only [changed, onDecodedPacketChanged, step, NamePromoter.onDecodedPacket,
        NamePromoter.enterWorld]
      split_ifs
      · exact Or.inl ⟨rfl, rfl⟩
      · exact Or.inl ⟨rfl, rfl⟩
      · exact Or.inl ⟨rfl, rfl⟩
      all_goals cases r.box? h with
        | none => exact Or.inl ⟨rfl, rfl⟩
        | some b =>
            simp only
            split_ifs
            all_goals first
              | exact Or.inl ⟨rfl, rfl⟩
              | exact Or.inr ⟨[], rfl⟩
  | promoteByName h name =>
      simp only [changed, promoteByNameChanged, step]
      cases found : r.box? h with
      | none => exact Or.inl ⟨rfl, by simp [BoxRegistry.promoteByName, found]⟩
      | some b =>
          simp only
          split_ifs with empty same
          · exact Or.inl ⟨rfl, by simp [BoxRegistry.promoteByName, found, empty]⟩
          · exact Or.inl ⟨rfl, by simp [BoxRegistry.promoteByName, found, empty, same]⟩
          · exact Or.inr ⟨[promote nameHash r b name], rfl⟩
  | setActiveCharacterId id =>
      simp only [changed, step, BoxRegistry.setActiveCharacterId]
      cases r.findById id with
      | none => exact Or.inl ⟨rfl, rfl⟩
      | some b =>
          simp only
          split_ifs with same
          · exact Or.inl ⟨rfl, by simp [picture, box?, same]⟩
          · exact Or.inr ⟨[], rfl⟩
  | evictStale nowMs ttlMs =>
      simp only [changed, evictStaleChanged, step]
      split_ifs with off none
      · exact Or.inl ⟨rfl, by simp [BoxRegistry.evictStale, off]⟩
      · exact Or.inl ⟨rfl, by rw [evictStale_of_none none]⟩
      · exact Or.inr ⟨[], rfl⟩
  | zoneServerInfo h packet nowMs =>
      exact Or.inl ⟨rfl, announce_invariant (I := fun t => t.picture = r.picture)
        (fun _ _ _ same holds => (picture_update same).trans holds) rfl h packet nowMs⟩
  | zonePacket clientAddr packet nowMs =>
      exact Or.inl ⟨rfl, dispatchZone_invariant (I := fun t => t.picture = r.picture)
        (fun _ _ _ same holds => (picture_update same).trans holds) rfl clientAddr packet nowMs⟩

end BoxRegistry

-----------------------------------------------------------------------------------------
-- The picker is current
-----------------------------------------------------------------------------------------

namespace PickerSource

variable {nameHash : String → UInt64}

/-- A client holds a list, which shows the registry. -/
def Shows (held : Option BoxListUpdated) (s : PickerSource) : Prop :=
  held.map BoxListUpdated.picture = some s.registry.picture

/-- After a list that was sent last, the client holds that list. -/
theorem shows_snoc (held : Option BoxListUpdated) (earlier : List PickerBody) (s : PickerSource)
    : Shows (FeedSource.read heldList held (earlier ++ [.boxListUpdated s.sendBoxList])) s := by
  rw [FeedSource.read_append]
  exact congrArg some (BoxRegistry.picture_sendBoxList s)

theorem followed
    : (feed nameHash).Followed heldList none (fun s => s.registry.WellFormed nameHash) Shows where
  keeps s op holds := by
    cases op with
    | registry op => exact holds.step op
    | notifyChanged => exact holds
    | decoded shortZoneName level => exact holds
  greets s waiting _ _ := shows_snoc none (.other :: waiting) s
  follows s op held _ shows := by
    cases op with
    | registry op =>
        rcases @BoxRegistry.changed_spec nameHash op s.registry with
          ⟨silent, same⟩ | ⟨earlier, signalled⟩
        · simp only [feed, sends, silent, List.map_nil]
          exact shows.trans (congrArg some same.symm)
        · simp only [feed, sends, signalled, List.map_append]
          exact shows_snoc held _ _
    | notifyChanged => exact shows_snoc held [] s
    | decoded shortZoneName level => exact shows
  refreshes _ _ _ shows := shows

/-- In every run of the registry and of the sessions, a client that has subscribed holds the
characters with the addresses of their current sessions and the active id, as they are; and each
entry it holds has the address of a box of the registry.
-/
theorem picker_current {shortZoneName : String} {level : UInt8} {f : Fed PickerSource PickerBody}
    (reached : (feed nameHash).Reaches (fresh shortZoneName level) f) {id : String}
    {a : SessionAdapter PickerBody} (there : f.sessions id = some a)
    (subscribed : a.subscribed = true)
    : ∃ list,
        FeedSource.read heldList none a.bodies = some list
          ∧ list.picture = f.source.registry.picture
          ∧ ∀ entry ∈ list.boxes,
              ∃ b ∈ f.source.registry.boxes, entry.clientIp = some b.clientIp := by
  obtain ⟨wellFormed, shows⟩ := followed.shows BoxRegistry.wellFormed_empty reached
  obtain ⟨list, held, same⟩ := Option.map_eq_some_iff.mp (shows id a there subscribed)
  refine ⟨list, held, same, fun entry member => ?_⟩
  have listed : (entry.boxId, entry.displayName, entry.clientIp)
      ∈ f.source.registry.picture.entries := by
    rw [← same]
    exact List.mem_map_of_mem member
  obtain ⟨c, row, shown⟩ := List.mem_map.mp listed
  obtain ⟨b, box, session⟩ := wellFormed.live c row
  refine ⟨b, box, ?_⟩
  have address : (f.source.registry.box? c.session).map Box.clientIp = entry.clientIp :=
    congrArg (fun e => e.2.2) shown
  rw [← address, ← session, wellFormed.box?_handle box, Option.map_some]

/-- A box is seen and its character known while a session opens early and subscribes late. -/
def annRun : List (FeedEvent PickerOp) :=
  [.opened "tab" .noop, .operate (.registry (.observe 5 6 7 8 9)) (fun _ => 9),
    .subscribed "tab" (fun _ => 10), .operate (.registry (.promoteByName 0 "Ann")) (fun _ => 11)]

theorem picker_current_ann
    : ∃ a : SessionAdapter PickerBody, ∃ list,
        FeedSource.read heldList none a.bodies = some list
          ∧ list.picture = { entries := [(.hashed 3, "Ann", some 5)], active := .hashed 3 } := by
  let hash (name : String) : UInt64 := .ofNat name.length
  let f := Machine.exec (feed hash).happen (FeedSource.start (fresh "unknown" 1)) annRun
  have live : (f.sessions "tab").map (·.subscribed) = some true := by decide
  obtain ⟨a, there, subscribed⟩ := Option.map_eq_some_iff.mp live
  have reached : (feed hash).Reaches (fresh "unknown" 1) f :=
    Machine.reaches_exec (by simp [Machine.Permits, annRun])
  obtain ⟨list, held, same, _⟩ := picker_current reached there subscribed
  exact ⟨a, list, held, same.trans (by decide)⟩

end PickerSource

end Scry
