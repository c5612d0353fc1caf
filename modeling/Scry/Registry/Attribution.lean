import Scry.Library.OrderedMap
import Scry.Registry.Characters

/-! Which box a decoded profile names.
Every box's streams feed one set of managers, and only the hooks of the primary box listen to
it, so that a profile names the primary box whoever's streams carried it.
-/

namespace Scry

/-- A `ManagerSet`, by the number of its `buildManagerSet` call. -/
abbrev ManagerSet := Nat

/-- A call of `promoteByName` by a hook, and the box whose stream carried the name. -/
structure Promotion where
  carrier : Handle
  box : Handle
  name : String
  deriving DecidableEq

/-- `DaemonApp` as far as boxes and managers go. A box's streams are wired to the set that
`m_boxManagers` has for it, and each entry of `nameHooks` stands for the hooks of one box on the
signals of one set. What the hooks called and what the streams carried is kept as history.
-/
structure DaemonApp where
  boxRegistry : BoxRegistry
  activeManagers : ManagerSet
  boxManagers : OrderedMap Handle ManagerSet
  nameHooks : List (ManagerSet × Handle)
  promotions : List Promotion
  carried : List (Handle × String)

/-- What happens to the daemon's boxes. -/
inductive DaemonOp
  | observe (clientIp serverIp : UInt32) (clientWorldPort serverWorldPort : UInt16)
    (nowMs : Int)
  | enterWorld (h : Handle) (packet : DecodedPacket)
  | setActiveCharacterId (id : BoxId)
  | evictStale (nowMs ttlMs : Int)
  | zoneServerInfo (h : Handle) (packet : DecodedPacket) (nowMs : Int)
  | zonePacket (clientAddr : UInt32) (packet : ZonePacket) (nowMs : Int)
  | playerProfile (carrier : Handle) (nameField : Bytes)
  | identityNameResolved (carrier : Handle) (name : String)
  | playerNameResolved (carrier : Handle) (name : String)

namespace DaemonApp

/-- Before the first packet, with the active set built. -/
def start : DaemonApp :=
  { boxRegistry := .empty
    activeManagers := 0
    boxManagers := .empty
    nameHooks := []
    promotions := []
    carried := [] }

/-- `onBoxCreated`: every box resolves to the active set, and only the primary one goes on to
connect its hooks.
-/
def onBoxCreated (d : DaemonApp) (box : Box) : DaemonApp :=
  let d := { d with boxManagers := d.boxManagers.insert box.handle d.activeManagers }
  if box.isPrimary then { d with nameHooks := d.nameHooks ++ [(d.activeManagers, box.handle)] }
  else d

/-- `onBoxAboutToBeRemoved`. -/
def onBoxAboutToBeRemoved (d : DaemonApp) (box : Box) : DaemonApp :=
  if box.isPrimary then d else { d with boxManagers := d.boxManagers.erase box.handle }

/-- A world packet, which may show a new box. -/
def observe (d : DaemonApp) (clientIp serverIp : UInt32)
    (clientWorldPort serverWorldPort : UInt16) (nowMs : Int)
    : DaemonApp :=
  let r := d.boxRegistry
  let seen :=
    { d with boxRegistry := r.observe clientIp serverIp clientWorldPort serverWorldPort nowMs }
  match r.lookupByWorld clientIp clientWorldPort serverWorldPort with
  | some _ => seen
  | none =>
      seen.onBoxCreated (r.created clientIp serverIp clientWorldPort serverWorldPort nowMs)

/-- A sweep, which announces each box it reaps. -/
def evictStale (d : DaemonApp) (nowMs ttlMs : Int) : DaemonApp :=
  let r := d.boxRegistry
  let victims := if ttlMs ≤ 0 then [] else r.boxes.filter (r.isVictim nowMs ttlMs)
  { victims.foldl onBoxAboutToBeRemoved d with boxRegistry := r.evictStale nowMs ttlMs }

/-- The name of a `charProfileStruct`, up to its first zero byte, as Latin-1 text. -/
def profileName (nameField : Bytes) : String :=
  String.ofList ((nameField.takeWhile (· ≠ 0)).map fun byte => Char.ofNat byte.toNat)

/-- The boxes whose hooks hear what a box's streams carry. -/
def listeners (d : DaemonApp) (carrier : Handle) : List Handle :=
  match d.boxManagers.find? carrier with
  | none => []
  | some managers => (d.nameHooks.filter (·.1 = managers)).map Prod.snd

/-- One hook: it promotes the box it has captured, unless its own test says not to. -/
def hook (nameHash : String → UInt64) (fires : Box → Bool) (carrier : Handle) (name : String)
    (d : DaemonApp) (box : Handle)
    : DaemonApp :=
  if (d.boxRegistry.box? box).any fires then
    { d with
      boxRegistry := d.boxRegistry.promoteByName nameHash box name
      promotions := d.promotions ++ [{ carrier, box, name }] }
  else d

/-- A signal with a name that the managers emit for a packet of a box's streams. -/
def resolved (nameHash : String → UInt64) (d : DaemonApp) (fires : Box → Bool)
    (carrier : Handle) (name : String)
    : DaemonApp :=
  (d.listeners carrier).foldl (hook nameHash fires carrier name)
    { d with carried := d.carried ++ [(carrier, name)] }

/-- `ZoneMgr::playerProfile`. -/
def playerProfile (nameHash : String → UInt64) (d : DaemonApp) (carrier : Handle)
    (nameField : Bytes)
    : DaemonApp :=
  d.resolved nameHash (fun _ => true) carrier (profileName nameField)

/-- `Player::identityNameResolved`. -/
def identityNameResolved (nameHash : String → UInt64) (d : DaemonApp) (carrier : Handle)
    (name : String)
    : DaemonApp :=
  d.resolved nameHash (fun _ => true) carrier name

/-- `SpawnShell::playerNameResolved`, which only names a box that has no name. -/
def playerNameResolved (nameHash : String → UInt64) (d : DaemonApp) (carrier : Handle)
    (name : String)
    : DaemonApp :=
  d.resolved nameHash (·.displayName = "") carrier name

/-- One step of the run. -/
def step (nameHash : String → UInt64) : DaemonOp → DaemonApp → DaemonApp
  | .observe clientIp serverIp clientWorldPort serverWorldPort nowMs, d =>
      d.observe clientIp serverIp clientWorldPort serverWorldPort nowMs
  | .enterWorld h packet, d =>
      { d with
        boxRegistry := NamePromoter.onDecodedPacket nameHash d.boxRegistry h packet
        carried := d.carried ++ [(h, NamePromoter.characterName packet.data)] }
  | .setActiveCharacterId id, d =>
      { d with boxRegistry := d.boxRegistry.setActiveCharacterId id }
  | .evictStale nowMs ttlMs, d => d.evictStale nowMs ttlMs
  | .zoneServerInfo h packet nowMs, d =>
      { d with
        boxRegistry := ZoneServerObserver.onDecodedPacket d.boxRegistry h packet nowMs }
  | .zonePacket clientAddr packet nowMs, d =>
      { d with boxRegistry := (d.boxRegistry.dispatchZone clientAddr packet nowMs).2 }
  | .playerProfile carrier nameField, d => d.playerProfile nameHash carrier nameField
  | .identityNameResolved carrier name, d => d.identityNameResolved nameHash carrier name
  | .playerNameResolved carrier name, d => d.playerNameResolved nameHash carrier name

end DaemonApp

namespace BoxRegistry

variable {nameHash : String → UInt64} {r : BoxRegistry}

-----------------------------------------------------------------------------------------
-- Handles
-----------------------------------------------------------------------------------------

/-- The boxes by handle, and which are primary. -/
def sessions (r : BoxRegistry) : List (Handle × Bool) :=
  r.boxes.map fun b => (b.handle, b.isPrimary)

theorem sessions_update {h : Handle} {f : Box → Box} (same : ∀ b : Box, b.SameSession (f b))
    : (r.update h f).sessions = r.sessions := by
  simp only [sessions, update, List.map_map]
  apply List.map_congr_left
  intro b _
  rw [Function.comp_apply]
  split
  · rw [(same b).handle, (same b).isPrimary]
  · rfl

theorem sessions_reclassify (id : BoxId) : (r.reclassify id).sessions = r.sessions := by
  simp only [sessions, reclassify, List.map_map]
  apply List.map_congr_left
  intro b _
  have same := sameSession_classified id (r.currentBoxFor id) b
  rw [Function.comp_apply, same.handle, same.isPrimary]

theorem sessions_promote (b : Box) (name : String)
    : (promote nameHash r b name).sessions = r.sessions :=
  sessions_update (f := Box.named nameHash name) fun _ => ⟨rfl, rfl, rfl⟩

theorem sessions_promoteByName (h : Handle) (name : String)
    : (r.promoteByName nameHash h name).sessions = r.sessions := by
  rcases promoteByName_cases nameHash r h name with ⟨same, _⟩ | ⟨b, _, _, _, result⟩
  · rw [same]
  · rw [result, sessions_reclassify]
    exact sessions_promote b name

theorem sessions_onDecodedPacket (h : Handle) (packet : DecodedPacket)
    : (NamePromoter.onDecodedPacket nameHash r h packet).sessions = r.sessions := by
  rcases onDecodedPacket_cases r h packet with same | ⟨b, _, _, _, result⟩
  · rw [same]
  · rw [result]
    exact sessions_promote b _

theorem sessions_setActiveCharacterId (id : BoxId)
    : (r.setActiveCharacterId id).sessions = r.sessions := by
  simp only [setActiveCharacterId]
  split <;> rfl

-----------------------------------------------------------------------------------------
-- Names
-----------------------------------------------------------------------------------------

/-- Every box and every row has its name from the streams of its own box. -/
structure Named (nameHash : String → UInt64) (carried : List (Handle × String))
    (r : BoxRegistry) : Prop where
  boxes : ∀ b ∈ r.boxes, b.displayName = "" ∨ (b.handle, b.displayName) ∈ carried
  rows
    : ∀ c ∈ r.characters,
        ∃ name, (c.session, name) ∈ carried ∧ c.id = .hashed (nameHash name)

variable {carried : List (Handle × String)}

theorem Named.more (named : Named nameHash carried r) (later : List (Handle × String))
    : Named nameHash (carried ++ later) r where
  boxes b member := (named.boxes b member).imp_right (List.mem_append_left later)
  rows c row := by
    obtain ⟨name, own, id⟩ := named.rows c row
    exact ⟨name, List.mem_append_left later own, id⟩

/-- Boxes replaced by others with their names. -/
theorem Named.mapBoxes (named : Named nameHash carried r) {g : Box → Box}
    (handle : ∀ b, (g b).handle = b.handle) (name : ∀ b, (g b).displayName = b.displayName)
    : Named nameHash carried { r with boxes := r.boxes.map g } where
  boxes := by
    intro c member
    obtain ⟨b, present, rfl⟩ := List.mem_map.mp member
    rw [handle, name]
    exact named.boxes b present
  rows := named.rows

theorem Named.touch (named : Named nameHash carried r) (h : Handle) {f : Box → Box}
    (same : ∀ b : Box, b.SameIdentity (f b))
    : Named nameHash carried (r.update h f) := by
  refine named.mapBoxes (fun b => ?_) (fun b => ?_)
  · split
    · exact (same b).handle
    · rfl
  · split
    · exact (same b).displayName
    · rfl

theorem Named.withActive (named : Named nameHash carried r) (id : BoxId)
    : Named nameHash carried { r with activeCharacterId := id } :=
  ⟨named.boxes, named.rows⟩

theorem Named.reclassify (named : Named nameHash carried r) (id : BoxId)
    : Named nameHash carried (r.reclassify id) := by
  refine named.mapBoxes (fun b => ?_) (fun b => ?_)
  · exact (sameSession_classified _ _ b).handle
  · unfold Box.classified
    split <;> rfl

theorem Named.observe (named : Named nameHash carried r) (clientIp serverIp : UInt32)
    (clientWorldPort serverWorldPort : UInt16) (nowMs : Int)
    : Named nameHash carried
        (r.observe clientIp serverIp clientWorldPort serverWorldPort nowMs) := by
  unfold BoxRegistry.observe
  split
  · exact named.touch _ (sameIdentity_observed serverIp nowMs)
  · refine ⟨fun b member => ?_, named.rows⟩
    rcases List.mem_append.mp member with old | new
    · exact named.boxes b old
    · rw [List.mem_singleton.mp new]
      exact Or.inl rfl

theorem Named.evictStale (named : Named nameHash carried r) (nowMs ttlMs : Int)
    : Named nameHash carried (r.evictStale nowMs ttlMs) := by
  unfold BoxRegistry.evictStale
  split
  · exact named
  · exact ⟨fun b member => named.boxes b (List.mem_of_mem_filter member),
      fun c row => named.rows c (List.mem_of_mem_filter row)⟩

/-- A box promoted to a name that its own streams carried. -/
theorem Named.promote (named : Named nameHash carried r) (wellFormed : WellFormed nameHash r)
    {b : Box} {name : String} (own : (b.handle, name) ∈ carried)
    : Named nameHash carried (promote nameHash r b name) where
  boxes := by
    intro c member
    obtain ⟨x, present, rfl⟩ := mem_update.mp member
    split
    · rename_i written
      exact Or.inr (by simpa [Box.named, written] using own)
    · exact named.boxes x present
  rows := by
    intro c row
    rcases mem_upsertCharacter wellFormed.rows row with
      ⟨kept, _⟩ | ⟨key, _, session | ⟨old, present, id, session, _⟩⟩
    · exact named.rows c kept
    · exact ⟨name, session ▸ own, key⟩
    · obtain ⟨oldName, carriedOld, oldId⟩ := named.rows old present
      exact ⟨oldName, session ▸ carriedOld, key.trans (id.symm.trans oldId)⟩

theorem Named.promoteByName (named : Named nameHash carried r)
    (wellFormed : WellFormed nameHash r) {h : Handle} {name : String}
    (own : (h, name) ∈ carried)
    : Named nameHash carried (r.promoteByName nameHash h name) := by
  rcases promoteByName_cases nameHash r h name with ⟨same, _⟩ | ⟨b, found, _, _, result⟩
  · rw [same]
    exact named
  · rw [result]
    have promoted := named.promote wellFormed (b := b) ((of_box? found).2.symm ▸ own)
    exact (promoted.withActive _).reclassify _

theorem Named.onDecodedPacket (named : Named nameHash carried r)
    (wellFormed : WellFormed nameHash r) {h : Handle} {packet : DecodedPacket}
    (own : (h, NamePromoter.characterName packet.data) ∈ carried)
    : Named nameHash carried (NamePromoter.onDecodedPacket nameHash r h packet) := by
  rcases onDecodedPacket_cases r h packet with same | ⟨b, found, _, _, result⟩
  · rw [same]
    exact named
  · rw [result]
    exact named.promote wellFormed ((of_box? found).2.symm ▸ own)

end BoxRegistry

namespace DaemonApp

open BoxRegistry (WellFormed Named)

variable {nameHash : String → UInt64} {d : DaemonApp}

-----------------------------------------------------------------------------------------
-- Who listens
-----------------------------------------------------------------------------------------

/-- Only the primary box has hooks, and every box's streams feed the set they listen to. -/
structure Wired (nameHash : String → UInt64) (d : DaemonApp) : Prop where
  wellFormed : WellFormed nameHash d.boxRegistry
  hooks
    : d.nameHooks
      = (d.boxRegistry.sessions.filter (·.2)).map fun session => (d.activeManagers, session.1)
  managers
    : ∀ h, d.boxManagers.find? h
      = if h ∈ d.boxRegistry.sessions.map Prod.fst then some d.activeManagers else none

theorem wired_start : Wired nameHash start where
  wellFormed := BoxRegistry.wellFormed_empty
  hooks := rfl
  managers _ := rfl

/-- Another registry with the same boxes. -/
theorem Wired.withRegistry (wired : Wired nameHash d) {after : DaemonApp}
    (wellFormed : WellFormed nameHash after.boxRegistry)
    (same : after.boxRegistry.sessions = d.boxRegistry.sessions)
    (active : after.activeManagers = d.activeManagers)
    (managers : after.boxManagers = d.boxManagers) (hooks : after.nameHooks = d.nameHooks)
    : Wired nameHash after where
  wellFormed := wellFormed
  hooks := by
    rw [hooks, same, active]
    exact wired.hooks
  managers := by
    rw [managers, same, active]
    exact wired.managers

/-- A registry has no box, or a first one that alone is primary. -/
theorem primaries_eq (wellFormed : WellFormed nameHash d.boxRegistry)
    : (d.boxRegistry.boxes = [] ∧ d.boxRegistry.sessions.filter (·.2) = [])
      ∨ ∃ first ∈ d.boxRegistry.boxes,
          (∀ b ∈ d.boxRegistry.boxes, b.isPrimary = true ↔ b = first)
            ∧ d.boxRegistry.sessions.filter (·.2) = [(first.handle, true)] := by
  have primary := wellFormed.primaryFirst
  simp only [BoxRegistry.sessions]
  revert primary
  cases d.boxRegistry.boxes with
  | nil => exact fun _ => Or.inl ⟨rfl, rfl⟩
  | cons first rest =>
      intro primary
      refine Or.inr ⟨first, List.mem_cons_self, fun b member => ?_, ?_⟩
      · rcases List.mem_cons.mp member with rfl | later
        · exact iff_of_true primary.1 rfl
        · have other := primary.2 b later
          refine iff_of_false (by simp [other]) fun same => ?_
          rw [same, primary.1] at other
          cases other
      · have none : (rest.map fun b => (b.handle, b.isPrimary)).filter (·.2) = [] := by
          apply List.filter_eq_nil_iff.mpr
          intro session member
          obtain ⟨b, present, rfl⟩ := List.mem_map.mp member
          simp [primary.2 b present]
        simp [primary.1, none]

/-- The primary box hears every box there is, and no other box hears anything. -/
theorem Wired.listeners_eq (wired : Wired nameHash d) (carrier : Handle)
    : ((∀ b ∈ d.boxRegistry.boxes, b.handle ≠ carrier) ∧ d.listeners carrier = [])
      ∨ ∃ b ∈ d.boxRegistry.boxes,
          b.handle = carrier
            ∧ ∃ first ∈ d.boxRegistry.boxes,
                (∀ c ∈ d.boxRegistry.boxes, c.isPrimary = true ↔ c = first)
                  ∧ d.listeners carrier = [first.handle] := by
  have found := wired.managers carrier
  have hooks := wired.hooks
  by_cases there : ∃ b ∈ d.boxRegistry.boxes, b.handle = carrier
  · obtain ⟨b, member, handle⟩ := there
    have known : carrier ∈ d.boxRegistry.sessions.map Prod.fst := by
      refine List.mem_map.mpr ⟨(b.handle, b.isPrimary), ?_, handle⟩
      exact List.mem_map_of_mem member
    rw [if_pos known] at found
    rcases primaries_eq wired.wellFormed with ⟨none, _⟩ | ⟨first, present, only, primaries⟩
    · rw [none] at member
      cases member
    · refine Or.inr ⟨b, member, handle, first, present, only, ?_⟩
      rw [primaries] at hooks
      simp [listeners, found, hooks]
  · have unknown : carrier ∉ d.boxRegistry.sessions.map Prod.fst := by
      intro known
      obtain ⟨session, member, handle⟩ := List.mem_map.mp known
      obtain ⟨b, present, rfl⟩ := List.mem_map.mp member
      exact there ⟨b, present, handle⟩
    rw [if_neg unknown] at found
    refine Or.inl ⟨fun b member handle => there ⟨b, member, handle⟩, ?_⟩
    simp [listeners, found]

-----------------------------------------------------------------------------------------
-- Every run is wired so
-----------------------------------------------------------------------------------------

/-- What a new box changes. -/
theorem onBoxCreated_frame (d : DaemonApp) (b : Box)
    : (d.onBoxCreated b).boxRegistry = d.boxRegistry
      ∧ (d.onBoxCreated b).activeManagers = d.activeManagers
      ∧ (d.onBoxCreated b).boxManagers = d.boxManagers.insert b.handle d.activeManagers
      ∧ (d.onBoxCreated b).nameHooks
        = d.nameHooks ++ if b.isPrimary then [(d.activeManagers, b.handle)] else [] := by
  simp only [onBoxCreated]
  split
  · exact ⟨rfl, rfl, rfl, rfl⟩
  · exact ⟨rfl, rfl, rfl, (List.append_nil _).symm⟩

theorem Wired.observe (wired : Wired nameHash d) (clientIp serverIp : UInt32)
    (clientWorldPort serverWorldPort : UInt16) (nowMs : Int)
    : Wired nameHash (d.observe clientIp serverIp clientWorldPort serverWorldPort nowMs) := by
  have wellFormed := wired.wellFormed.observe clientIp serverIp clientWorldPort serverWorldPort
    nowMs
  simp only [DaemonApp.observe]
  cases known : d.boxRegistry.lookupByWorld clientIp clientWorldPort serverWorldPort with
  | some hit =>
      refine wired.withRegistry wellFormed ?_ rfl rfl rfl
      simp only [BoxRegistry.observe, known]
      exact BoxRegistry.sessions_update fun b =>
        (BoxRegistry.sameIdentity_observed serverIp nowMs b).toSameSession
  | none =>
      have sessions
          : (d.boxRegistry.observe clientIp serverIp clientWorldPort serverWorldPort
              nowMs).sessions
            = d.boxRegistry.sessions
              ++ [(d.boxRegistry.nextHandle, d.boxRegistry.boxes.isEmpty)] := by
        simp [BoxRegistry.observe, known, BoxRegistry.sessions, BoxRegistry.append,
          BoxRegistry.created]
      have hooks := wired.hooks
      have managers (h : Handle)
          : (d.boxManagers.insert d.boxRegistry.nextHandle d.activeManagers).find? h
            = if h ∈ (d.boxRegistry.observe clientIp serverIp clientWorldPort serverWorldPort
                nowMs).sessions.map Prod.fst then some d.activeManagers
              else none := by
        rcases eq_or_ne h d.boxRegistry.nextHandle with rfl | other
        · rw [OrderedMap.find?_insert_self, if_pos (by simp [sessions])]
        · rw [OrderedMap.find?_insert_of_ne _ _ other, wired.managers h]
          simp [sessions, other]
      obtain ⟨registry, active, newManagers, newHooks⟩ := onBoxCreated_frame
        { d with
          boxRegistry :=
            d.boxRegistry.observe clientIp serverIp clientWorldPort serverWorldPort nowMs }
        (d.boxRegistry.created clientIp serverIp clientWorldPort serverWorldPort nowMs)
      dsimp only
      refine ⟨registry ▸ wellFormed, ?_, fun h => ?_⟩
      · rw [newHooks, registry, active, sessions, List.filter_append, List.map_append, ← hooks]
        congr 1
        by_cases primary : d.boxRegistry.boxes.isEmpty = true
        · simp [BoxRegistry.created, primary]
        · simp [BoxRegistry.created, primary]
      · rw [newManagers, registry, active]
        exact managers h

/-- What announcing reaped boxes leaves, by induction on them. -/
theorem foldl_onBoxAboutToBeRemoved (victims : List Box)
    : (victims.foldl onBoxAboutToBeRemoved d).nameHooks = d.nameHooks
      ∧ (victims.foldl onBoxAboutToBeRemoved d).activeManagers = d.activeManagers
      ∧ ∀ h, (victims.foldl onBoxAboutToBeRemoved d).boxManagers.find? h
        = if ∃ b ∈ victims, b.isPrimary = false ∧ b.handle = h then none
          else d.boxManagers.find? h := by
  induction victims generalizing d with
  | nil => exact ⟨rfl, rfl, fun h => by simp⟩
  | cons b rest ih =>
      obtain ⟨hooks, active, managers⟩ := ih (d := d.onBoxAboutToBeRemoved b)
      rw [List.foldl_cons]
      cases primary : b.isPrimary with
      | true =>
          simp only [onBoxAboutToBeRemoved, primary, if_true] at hooks active managers ⊢
          refine ⟨hooks, active, fun h => ?_⟩
          rw [managers h]
          simp [primary]
      | false =>
          simp only [onBoxAboutToBeRemoved, primary] at hooks active managers ⊢
          refine ⟨hooks, active, fun h => (managers h).trans ?_⟩
          rcases eq_or_ne h b.handle with rfl | other
          · simp [primary]
          · simp only [List.mem_cons, exists_eq_or_imp, primary, true_and, other.symm, false_or,
              Bool.false_eq_true, if_false]
            rw [OrderedMap.find?_erase_of_ne _ other]

theorem Wired.evictStale (wired : Wired nameHash d) (nowMs ttlMs : Int)
    : Wired nameHash (d.evictStale nowMs ttlMs) := by
  have wellFormed := wired.wellFormed.evictStale nowMs ttlMs
  by_cases off : ttlMs ≤ 0
  · simp only [DaemonApp.evictStale, if_pos off, List.foldl_nil, BoxRegistry.evictStale]
    exact wired
  · simp only [DaemonApp.evictStale, if_neg off]
    obtain ⟨hooks, active, managers⟩ := foldl_onBoxAboutToBeRemoved (d := d)
      (d.boxRegistry.boxes.filter (d.boxRegistry.isVictim nowMs ttlMs))
    refine ⟨wellFormed, ?_, fun h => ?_⟩
    · rw [hooks, active, wired.hooks]
      congr 1
      simp only [BoxRegistry.sessions, BoxRegistry.evictStale, if_neg off, List.filter_map,
        List.filter_filter]
      congr 1
      apply List.filter_congr
      intro b _
      cases primary : b.isPrimary with
      | false => simp [primary]
      | true => simp [primary, BoxRegistry.not_isVictim_of_isPrimary primary]
    · rw [managers h, active, wired.managers h]
      simp only [BoxRegistry.sessions, BoxRegistry.evictStale, if_neg off]
      by_cases reaped
          : ∃ b ∈ d.boxRegistry.boxes.filter (d.boxRegistry.isVictim nowMs ttlMs),
              b.isPrimary = false ∧ b.handle = h
      · rw [if_pos reaped, if_neg]
        obtain ⟨b, victim, _, handle⟩ := reaped
        obtain ⟨present, dead⟩ := List.mem_filter.mp victim
        intro kept
        obtain ⟨session, member, same⟩ := List.mem_map.mp kept
        obtain ⟨c, spared, rfl⟩ := List.mem_map.mp member
        obtain ⟨there, alive⟩ := List.mem_filter.mp spared
        obtain rfl := wired.wellFormed.eq_of_handle there present (same.trans handle.symm)
        simp [dead] at alive
      · rw [if_neg reaped]
        congr 1
        simp only [List.map_map, List.mem_map, List.mem_filter, Function.comp_apply, eq_iff_iff]
        constructor
        · rintro ⟨b, present, handle⟩
          refine ⟨b, ⟨present, ?_⟩, handle⟩
          cases primary : b.isPrimary with
          | true => simp [BoxRegistry.not_isVictim_of_isPrimary primary]
          | false =>
              by_contra dead
              refine reaped ⟨b, List.mem_filter.mpr ⟨present, ?_⟩, primary, handle⟩
              simpa using dead
        · rintro ⟨b, ⟨present, _⟩, handle⟩
          exact ⟨b, present, handle⟩

theorem Wired.hook (wired : Wired nameHash d) (fires : Box → Bool) (carrier : Handle)
    (name : String) (box : Handle)
    : Wired nameHash (d.hook nameHash fires carrier name box) := by
  unfold DaemonApp.hook
  split
  · exact wired.withRegistry (wired.wellFormed.promoteByName box name)
      (BoxRegistry.sessions_promoteByName box name) rfl rfl rfl
  · exact wired

theorem Wired.resolved (wired : Wired nameHash d) (fires : Box → Bool) (carrier : Handle)
    (name : String)
    : Wired nameHash (d.resolved nameHash fires carrier name) := by
  have listening : Wired nameHash { d with carried := d.carried ++ [(carrier, name)] } :=
    ⟨wired.wellFormed, wired.hooks, wired.managers⟩
  simp only [DaemonApp.resolved]
  rcases wired.listeners_eq carrier with ⟨_, none⟩ | ⟨_, _, _, first, _, _, one⟩
  · rw [none]
    exact listening
  · rw [one]
    exact listening.hook fires carrier name first.handle

theorem Wired.step (wired : Wired nameHash d) (op : DaemonOp)
    : Wired nameHash (step nameHash op d) := by
  have wellFormed := wired.wellFormed
  cases op with
  | observe clientIp serverIp clientWorldPort serverWorldPort nowMs =>
      exact wired.observe clientIp serverIp clientWorldPort serverWorldPort nowMs
  | enterWorld h packet =>
      exact wired.withRegistry (wellFormed.onDecodedPacket h packet)
        (BoxRegistry.sessions_onDecodedPacket h packet) rfl rfl rfl
  | setActiveCharacterId id =>
      exact wired.withRegistry (wellFormed.step (.setActiveCharacterId id))
        (BoxRegistry.sessions_setActiveCharacterId id) rfl rfl rfl
  | evictStale nowMs ttlMs => exact wired.evictStale nowMs ttlMs
  | zoneServerInfo h packet nowMs =>
      refine wired.withRegistry (wellFormed.step (.zoneServerInfo h packet nowMs)) ?_ rfl rfl
        rfl
      refine BoxRegistry.announce_invariant
        (I := fun r => r.sessions = d.boxRegistry.sessions) ?_ rfl h packet nowMs
      exact fun _ _ _ same kept =>
        (BoxRegistry.sessions_update fun b => (same b).toSameSession).trans kept
  | zonePacket clientAddr packet nowMs =>
      refine wired.withRegistry (wellFormed.step (.zonePacket clientAddr packet nowMs)) ?_ rfl
        rfl rfl
      refine BoxRegistry.dispatchZone_invariant
        (I := fun r => r.sessions = d.boxRegistry.sessions) ?_ rfl clientAddr packet nowMs
      exact fun _ _ _ same kept =>
        (BoxRegistry.sessions_update fun b => (same b).toSameSession).trans kept
  | playerProfile carrier nameField => exact wired.resolved _ carrier _
  | identityNameResolved carrier name => exact wired.resolved _ carrier name
  | playerNameResolved carrier name => exact wired.resolved _ carrier name

-----------------------------------------------------------------------------------------
-- Attribution
-----------------------------------------------------------------------------------------

/-- A box, if it is there, is the primary one. -/
def IsPrimary (d : DaemonApp) (h : Handle) : Prop :=
  ∀ b ∈ d.boxRegistry.boxes, b.handle = h → b.isPrimary = true

instance (d : DaemonApp) (h : Handle) : Decidable (d.IsPrimary h) :=
  inferInstanceAs (Decidable (∀ b ∈ _, _ → _))

/-- What a step must find for its hooks to name the box whose streams carried the name: that is
the primary one, or it is only the fallback, and the primary one has a name already.
-/
def NamesOwn (d : DaemonApp) : DaemonOp → Prop
  | .playerProfile carrier _ => d.IsPrimary carrier
  | .identityNameResolved carrier _ => d.IsPrimary carrier
  | .playerNameResolved carrier _ =>
      d.IsPrimary carrier
        ∨ ∀ b ∈ d.boxRegistry.boxes, b.isPrimary = true → b.displayName ≠ ""
  | _ => True

/-- Every hook has promoted the box whose streams carried the name. -/
def Attributed (d : DaemonApp) : Prop := ∀ p ∈ d.promotions, p.box = p.carrier

/-- Where no box is primary, there is none. -/
theorem Wired.isPrimary_or_none_iff (wired : Wired nameHash d) (carrier : Handle)
    : (d.IsPrimary carrier ∨ ∀ b ∈ d.boxRegistry.boxes, b.isPrimary = true → true = false)
      ↔ d.IsPrimary carrier := by
  refine or_iff_left_of_imp fun none => ?_
  rcases primaries_eq wired.wellFormed with ⟨empty, _⟩ | ⟨first, present, only, _⟩
  · intro b member
    rw [empty] at member
    cases member
  · cases none first present ((only first present).mpr rfl)

/-- A resolved name adds the primary box's promotion, if its hook fires, by the only listener. -/
theorem Wired.attributed_resolved_iff (wired : Wired nameHash d) {fires : Box → Bool}
    {carrier : Handle} {name : String}
    : (d.resolved nameHash fires carrier name).Attributed
      ↔ d.Attributed
        ∧ (d.IsPrimary carrier
          ∨ ∀ b ∈ d.boxRegistry.boxes, b.isPrimary = true → fires b = false) := by
  simp only [DaemonApp.resolved]
  rcases wired.listeners_eq carrier with
    ⟨absent, none⟩ | ⟨b, member, handle, first, present, only, one⟩
  · rw [none]
    have primary : d.IsPrimary carrier := fun b member handle => absurd handle (absent b member)
    exact (and_iff_left (Or.inl primary)).symm
  · rw [one]
    have found := wired.wellFormed.box?_handle present
    have primary : d.IsPrimary carrier ↔ first.handle = carrier := by
      constructor
      · intro primary
        rw [← (only b member).mp (primary b member handle), handle]
      · intro same c there own
        have equal := wired.wellFormed.eq_of_handle there present (own.trans same.symm)
        exact (only c there).mpr equal
    have silent
        : (∀ b ∈ d.boxRegistry.boxes, b.isPrimary = true → fires b = false)
          ↔ fires first = false := by
      constructor
      · exact fun none => none first present ((only first present).mpr rfl)
      · intro none c there main
        rw [(only c there).mp main]
        exact none
    rw [primary, silent, List.foldl_cons, List.foldl_nil]
    simp only [DaemonApp.hook, found, Option.any_some]
    cases fired : fires first with
    | false => simp [Attributed]
    | true =>
        simp only [Attributed, if_true, List.mem_append, List.mem_singleton, Bool.true_eq_false,
          or_false]
        constructor
        · exact fun all => ⟨fun p old => all p (Or.inl old), all _ (Or.inr rfl)⟩
        · rintro ⟨earlier, own⟩ p (old | rfl)
          · exact earlier p old
          · exact own

/-- A sweep and a new box leave the history. -/
theorem foldl_onBoxAboutToBeRemoved_promotions (victims : List Box)
    : (victims.foldl onBoxAboutToBeRemoved d).promotions = d.promotions
      ∧ (victims.foldl onBoxAboutToBeRemoved d).carried = d.carried := by
  induction victims generalizing d with
  | nil => exact ⟨rfl, rfl⟩
  | cons b rest ih =>
      obtain ⟨promotions, carried⟩ := ih (d := d.onBoxAboutToBeRemoved b)
      rw [List.foldl_cons, promotions, carried]
      unfold onBoxAboutToBeRemoved
      split <;> exact ⟨rfl, rfl⟩

theorem observe_promotions (clientIp serverIp : UInt32)
    (clientWorldPort serverWorldPort : UInt16) (nowMs : Int)
    : (d.observe clientIp serverIp clientWorldPort serverWorldPort nowMs).promotions
        = d.promotions
      ∧ (d.observe clientIp serverIp clientWorldPort serverWorldPort nowMs).carried
        = d.carried := by
  simp only [DaemonApp.observe, onBoxCreated]
  split
  · exact ⟨rfl, rfl⟩
  · split <;> exact ⟨rfl, rfl⟩

/-- One step more is attributed exactly when it finds what it must. -/
theorem Wired.attributed_step_iff (wired : Wired nameHash d) (op : DaemonOp)
    : (DaemonApp.step nameHash op d).Attributed ↔ d.Attributed ∧ d.NamesOwn op := by
  have same {after : DaemonApp} (history : after.promotions = d.promotions)
      : after.Attributed ↔ d.Attributed ∧ True := by
    rw [and_true, Attributed, history, Attributed]
  cases op with
  | observe clientIp serverIp clientWorldPort serverWorldPort nowMs =>
      exact same (observe_promotions clientIp serverIp clientWorldPort serverWorldPort nowMs).1
  | evictStale nowMs ttlMs => exact same (foldl_onBoxAboutToBeRemoved_promotions _).1
  | playerProfile carrier nameField =>
      exact wired.attributed_resolved_iff.trans
        (and_congr_right fun _ => wired.isPrimary_or_none_iff carrier)
  | identityNameResolved carrier name =>
      exact wired.attributed_resolved_iff.trans
        (and_congr_right fun _ => wired.isPrimary_or_none_iff carrier)
  | playerNameResolved carrier name =>
      refine wired.attributed_resolved_iff.trans (and_congr_right fun _ => ?_)
      simp [NamesOwn]
  | _ => exact same rfl

-----------------------------------------------------------------------------------------
-- Names of a box's own streams
-----------------------------------------------------------------------------------------

theorem observe_boxRegistry (clientIp serverIp : UInt32)
    (clientWorldPort serverWorldPort : UInt16) (nowMs : Int)
    : (d.observe clientIp serverIp clientWorldPort serverWorldPort nowMs).boxRegistry
      = d.boxRegistry.observe clientIp serverIp clientWorldPort serverWorldPort nowMs := by
  simp only [DaemonApp.observe]
  split
  · rfl
  · exact (onBoxCreated_frame _ _).1

/-- A resolved name that the only listener's own streams carried, or that it ignores. -/
theorem Wired.named_resolved (wired : Wired nameHash d)
    (named : Named nameHash d.carried d.boxRegistry) {fires : Box → Bool} {carrier : Handle}
    {name : String}
    (own
      : d.IsPrimary carrier ∨ ∀ b ∈ d.boxRegistry.boxes, b.isPrimary = true → fires b = false)
    : Named nameHash (d.resolved nameHash fires carrier name).carried
        (d.resolved nameHash fires carrier name).boxRegistry := by
  have more := named.more [(carrier, name)]
  simp only [DaemonApp.resolved]
  rcases wired.listeners_eq carrier with ⟨_, none⟩ | ⟨b, member, handle, first, present, only, one⟩
  · rw [none]
    exact more
  · rw [one, List.foldl_cons, List.foldl_nil]
    simp only [DaemonApp.hook, wired.wellFormed.box?_handle present, Option.any_some]
    split
    · rename_i fired
      have primary : d.IsPrimary carrier := by
        refine own.resolve_right fun silent => ?_
        rw [silent first present ((only first present).mpr rfl)] at fired
        cases fired
      have self : first.handle = carrier := by
        rw [← (only b member).mp (primary b member handle), handle]
      refine more.promoteByName wired.wellFormed ?_
      rw [self]
      exact List.mem_append_right _ (List.mem_singleton_self _)
    · exact more

theorem Wired.named_step (wired : Wired nameHash d)
    (named : Named nameHash d.carried d.boxRegistry) (op : DaemonOp) (own : d.NamesOwn op)
    : Named nameHash (DaemonApp.step nameHash op d).carried
        (DaemonApp.step nameHash op d).boxRegistry := by
  cases op with
  | observe clientIp serverIp clientWorldPort serverWorldPort nowMs =>
      simp only [DaemonApp.step, observe_boxRegistry]
      rw [(observe_promotions clientIp serverIp clientWorldPort serverWorldPort nowMs).2]
      exact named.observe clientIp serverIp clientWorldPort serverWorldPort nowMs
  | enterWorld h packet =>
      refine (named.more _).onDecodedPacket wired.wellFormed ?_
      exact List.mem_append_right _ (List.mem_singleton_self _)
  | setActiveCharacterId id =>
      simp only [DaemonApp.step, BoxRegistry.setActiveCharacterId]
      split
      · exact named
      · exact named.withActive id
  | evictStale nowMs ttlMs =>
      simp only [DaemonApp.step, DaemonApp.evictStale]
      rw [(foldl_onBoxAboutToBeRemoved_promotions _).2]
      exact named.evictStale nowMs ttlMs
  | zoneServerInfo h packet nowMs =>
      exact BoxRegistry.announce_invariant (fun _ h _ same named => named.touch h same) named h
        packet nowMs
  | zonePacket clientAddr packet nowMs =>
      exact BoxRegistry.dispatchZone_invariant (fun _ h _ same named => named.touch h same)
        named clientAddr packet nowMs
  | playerProfile carrier nameField => exact wired.named_resolved named (Or.inl own)
  | identityNameResolved carrier name => exact wired.named_resolved named (Or.inl own)
  | playerNameResolved carrier name =>
      refine wired.named_resolved named (own.imp_right fun named b member primary => ?_)
      simpa using named b member primary

-----------------------------------------------------------------------------------------
-- Runs
-----------------------------------------------------------------------------------------

theorem named_start : Named nameHash start.carried start.boxRegistry where
  boxes _ member := nomatch member
  rows _ row := nomatch row

theorem Wired.attributed_exec_iff (wired : Wired nameHash d) (ops : List DaemonOp)
    : (Machine.exec (DaemonApp.step nameHash) d ops).Attributed
      ↔ d.Attributed ∧ Machine.Permits (DaemonApp.step nameHash) NamesOwn d ops := by
  induction ops generalizing d with
  | nil => exact (and_iff_left trivial).symm
  | cons op rest ih =>
      refine (ih (wired.step op)).trans ?_
      rw [wired.attributed_step_iff op, and_assoc]
      rfl

/-- In every run, the hooks promote just the boxes whose streams carried the names exactly when
every name is carried by the primary box, or is a fallback that comes too late; and then every
box and every row of the store has its name from the streams of its own box.
-/
theorem attributed_iff (nameHash : String → UInt64) (ops : List DaemonOp)
    : let d := Machine.exec (DaemonApp.step nameHash) start ops
      ((∀ p ∈ d.promotions, p.box = p.carrier)
          ↔ Machine.Permits (DaemonApp.step nameHash) NamesOwn start ops)
        ∧ (Machine.Permits (DaemonApp.step nameHash) NamesOwn start ops →
          (∀ b ∈ d.boxRegistry.boxes,
              b.displayName = "" ∨ (b.handle, b.displayName) ∈ d.carried)
            ∧ ∀ c ∈ d.boxRegistry.characters,
                ∃ name, (c.session, name) ∈ d.carried ∧ c.id = .hashed (nameHash name)) := by
  constructor
  · have none : start.Attributed := fun p member => nomatch member
    have begins : Wired nameHash start := wired_start
    exact (begins.attributed_exec_iff ops).trans (and_iff_right none)
  · intro permits
    have reached := Machine.reaches_exec permits
    obtain ⟨_, named⟩ := reached.invariant
      (I := fun d => Wired nameHash d ∧ Named nameHash d.carried d.boxRegistry)
      ⟨wired_start, named_start⟩
      fun d op own held => ⟨held.1.step op, held.1.named_step held.2 op own⟩
    exact ⟨named.boxes, named.rows⟩

/-- Two clients; each logs in with its own character. -/
def twoLogins : List DaemonOp :=
  [.observe 0x0a0d0008 0x0a0d0001 1000 9016 0,
    .observe 0x0a0d0009 0x0a0d0001 1001 9016 1,
    .identityNameResolved 0 "Alpha",
    .identityNameResolved 1 "Beta"]

/-- The second login renames the first client's box. -/
theorem not_attributed_twoLogins
    : ¬ (∀ ops, ∀ p ∈ (Machine.exec (DaemonApp.step BoxRegistry.sampleHash) start ops).promotions,
          p.box = p.carrier) := by
  intro attributed
  have renamed
      : (Machine.exec (DaemonApp.step BoxRegistry.sampleHash) start twoLogins).promotions
        = [⟨0, 0, "Alpha"⟩, ⟨1, 0, "Beta"⟩] := by
    decide
  have second := attributed twoLogins ⟨1, 0, "Beta"⟩ (by rw [renamed]; simp)
  exact absurd second (by decide)

end DaemonApp
end Scry
