import Mathlib.Data.Set.Function
import Scry.Registry.Invariants

/-! The store of characters and the active one.
Rows are written when a box is promoted and dropped when its session is reaped; a box that
changes its name keeps the row it had, which is what coherence hangs on.
-/

namespace Scry

/-- The names an operation promotes under. -/
def RegistryOp.names : RegistryOp → List String
  | .enterWorld _ packet => [NamePromoter.characterName packet.data]
  | .promoteByName _ name => [name]
  | _ => []

/-- The box a promotion is for. -/
def RegistryOp.promotes : RegistryOp → Option Handle
  | .enterWorld h _ => some h
  | .promoteByName h _ => some h
  | _ => none

namespace BoxRegistry

variable {nameHash : String → UInt64} {names : Set String} {r : BoxRegistry}

/-- A row names a box that is there and says of it what the box says of itself. -/
def Describes (r : BoxRegistry) (c : Character) : Prop :=
  ∃ b ∈ r.boxes, b.handle = c.session ∧ b.boxId = c.id ∧ b.displayName = c.name

/-- Every row describes a box, and no id has two rows. -/
structure Coherent (r : BoxRegistry) : Prop where
  describes : ∀ c ∈ r.characters, r.Describes c
  unique : (r.characters.map Character.id).Nodup

/-- A promotion gives a box another name. -/
def Renames (b : Box) (name : String) : Prop :=
  b.displayName ≠ "" ∧ name ≠ "" ∧ b.displayName ≠ name

/-- No row's session is given another name. -/
def KeepsRows (r : BoxRegistry) : RegistryOp → Prop
  | .promoteByName h name =>
      ∀ b ∈ r.boxes, b.handle = h → Renames b name → ∀ c ∈ r.characters, c.session ≠ h
  | _ => True

/-- The names in use are known. -/
def Known (names : Set String) (op : RegistryOp) : Prop := ∀ name ∈ op.names, name ∈ names

-----------------------------------------------------------------------------------------
-- Rows that describe their boxes
-----------------------------------------------------------------------------------------

/-- The invariant behind coherence: rows carry known names and describe their boxes. -/
structure Filed (nameHash : String → UInt64) (names : Set String) (r : BoxRegistry) : Prop
    extends WellFormed nameHash r where
  known : ∀ c ∈ r.characters, c.name ∈ names
  describes : ∀ c ∈ r.characters, r.Describes c

theorem Filed.coherent (filed : Filed nameHash names r) : r.Coherent :=
  ⟨filed.describes, filed.rows⟩

/-- A row is described by the same box after boxes have been replaced by others that carry
the same character.
-/
theorem Describes.map {c : Character} (described : r.Describes c) {g : Box → Box}
    (same
      : ∀ b ∈ r.boxes,
          b.handle = c.session
          → (g b).handle = b.handle ∧ (g b).boxId = b.boxId ∧ (g b).displayName = b.displayName)
    {t : BoxRegistry} (boxes : t.boxes = r.boxes.map g)
    : t.Describes c := by
  obtain ⟨b, member, session, id, name⟩ := described
  obtain ⟨handle', id', name'⟩ := same b member session
  refine ⟨g b, ?_, handle'.trans session, id'.trans id, name'.trans name⟩
  rw [boxes]
  exact List.mem_map_of_mem member

/-- Writes that leave a box its identity. -/
theorem Filed.touch (filed : Filed nameHash names r) (h : Handle) {f : Box → Box}
    (same : ∀ b : Box, b.SameIdentity (f b))
    : Filed nameHash names (r.update h f) where
  toWellFormed := filed.toWellFormed.touch h same
  known := filed.known
  describes c row := by
    refine (filed.describes c row).map (fun b _ _ => ?_) rfl
    split
    · exact ⟨(same b).handle, (same b).boxId, (same b).displayName⟩
    · exact ⟨rfl, rfl, rfl⟩

theorem Filed.withActive (filed : Filed nameHash names r) (id : BoxId)
    : Filed nameHash names { r with activeCharacterId := id } :=
  { filed with toWellFormed := filed.toWellFormed.withActive id }

theorem Filed.reclassify (filed : Filed nameHash names r) (digest : UInt64)
    : Filed nameHash names (r.reclassify (.hashed digest)) where
  toWellFormed := filed.toWellFormed.reclassify digest
  known := filed.known
  describes c row := by
    refine (filed.describes c row).map (fun b _ _ => ?_) rfl
    unfold Box.classified
    split <;> exact ⟨rfl, rfl, rfl⟩

theorem Filed.observe (filed : Filed nameHash names r) (clientIp serverIp : UInt32)
    (clientWorldPort serverWorldPort : UInt16) (nowMs : Int)
    : Filed nameHash names
        (r.observe clientIp serverIp clientWorldPort serverWorldPort nowMs) := by
  have wellFormed :=
    filed.toWellFormed.observe clientIp serverIp clientWorldPort serverWorldPort nowMs
  unfold BoxRegistry.observe at wellFormed ⊢
  split
  · exact filed.touch _ (sameIdentity_observed serverIp nowMs)
  · rename_i missing
    rw [missing] at wellFormed
    refine ⟨wellFormed, filed.known, fun c row => ?_⟩
    obtain ⟨b, member, described⟩ := filed.describes c row
    exact ⟨b, List.mem_append_left _ member, described⟩

/-- A sweep drops the rows it leaves without a box. -/
theorem Filed.evictStale (filed : Filed nameHash names r) (nowMs ttlMs : Int)
    : Filed nameHash names (r.evictStale nowMs ttlMs) := by
  have wellFormed := filed.toWellFormed.evictStale nowMs ttlMs
  unfold BoxRegistry.evictStale at wellFormed ⊢
  split
  · exact filed
  · rename_i enabled
    rw [if_neg enabled] at wellFormed
    refine ⟨wellFormed, fun c row => filed.known c (List.mem_of_mem_filter row), ?_⟩
    intro c row
    obtain ⟨present, kept⟩ := List.mem_filter.mp row
    obtain ⟨b, member, session, described⟩ := filed.describes c present
    have alive := (filed.row_kept_iff member session).mp (by simpa using kept)
    exact ⟨b, List.mem_filter.mpr ⟨member, by simp [alive]⟩, session, described⟩

/-- Promoting a box that is no row's session: the other rows keep their boxes, and the
character's row gets this box or keeps a newer one of the same name.
-/
theorem Filed.promote (filed : Filed nameHash names r) (injective : Set.InjOn nameHash names)
    {b : Box} (member : b ∈ r.boxes) {name : String} (nonempty : name ≠ "")
    (known : name ∈ names) (free : ∀ c ∈ r.characters, c.session ≠ b.handle)
    : Filed nameHash names (promote nameHash r b name) where
  toWellFormed := filed.toWellFormed.promote member nonempty
  known := by
    intro c row
    rcases mem_upsertCharacter filed.rows row with ⟨kept, _⟩ | ⟨_, label, _⟩
    · exact filed.known c kept
    · rw [label]
      exact known
  describes := by
    have kept {c : Character} (row : c ∈ r.characters)
        : (BoxRegistry.promote nameHash r b name).Describes c := by
      refine (filed.describes c row).map (fun x _ session => ?_) rfl
      rw [if_neg (fun same => free c row (session.symm.trans same))]
      exact ⟨rfl, rfl, rfl⟩
    intro c row
    rcases mem_upsertCharacter filed.rows row with
      ⟨present, _⟩ | ⟨key, label, session | ⟨old, present, oldKey, session, _⟩⟩
    · exact kept present
    · refine ⟨b.named nameHash name, mem_update.mpr ⟨b, member, ?_⟩, session.symm, key.symm,
        label.symm⟩
      rw [if_pos rfl]
    · obtain ⟨x, there, handle, id, display⟩ := kept present
      refine ⟨x, there, handle.trans session.symm, id.trans (oldKey.trans key.symm), ?_⟩
      have digest : nameHash old.name = nameHash name := by
        have oldId := (filed.rowIds old present).2
        rw [oldKey] at oldId
        exact (BoxId.hashed.inj oldId).symm
      rw [display, label]
      exact injective (filed.known old present) known digest

/-- An unnamed box is no row's session. -/
theorem Filed.free_of_unnamed (filed : Filed nameHash names r) {b : Box} (member : b ∈ r.boxes)
    (unnamed : b.displayName = "")
    : ∀ c ∈ r.characters, c.session ≠ b.handle := by
  intro c row session
  obtain ⟨x, there, handle, _, display⟩ := filed.describes c row
  have same := filed.eq_of_handle there member (handle.trans session)
  rw [same, unnamed] at display
  exact (filed.rowIds c row).1 display.symm

theorem Filed.step (filed : Filed nameHash names r) (injective : Set.InjOn nameHash names)
    {op : RegistryOp} (known : Known names op) (keeps : r.KeepsRows op)
    : Filed nameHash names (step nameHash op r) := by
  cases op with
  | observe clientIp serverIp clientWorldPort serverWorldPort nowMs =>
      exact filed.observe clientIp serverIp clientWorldPort serverWorldPort nowMs
  | enterWorld h packet =>
      simp only [BoxRegistry.step]
      rcases onDecodedPacket_cases r h packet with same | ⟨b, found, nonempty, unnamed, result⟩
      · rw [same]
        exact filed
      · rw [result]
        have member := (of_box? found).1
        exact filed.promote injective member nonempty (known _ List.mem_cons_self)
          (filed.free_of_unnamed member unnamed)
  | promoteByName h name =>
      simp only [BoxRegistry.step]
      rcases promoteByName_cases nameHash r h name with ⟨same, _⟩ | ⟨b, found, nonempty, other, result⟩
      · rw [same]
        exact filed
      · rw [result]
        obtain ⟨member, handle⟩ := of_box? found
        have free : ∀ c ∈ r.characters, c.session ≠ b.handle := by
          by_cases unnamed : b.displayName = ""
          · exact filed.free_of_unnamed member unnamed
          · rw [handle]
            exact keeps b member handle ⟨unnamed, nonempty, other⟩
        have promoted :=
          filed.promote injective member nonempty (known _ List.mem_cons_self) free
        exact (promoted.withActive _).reclassify _
  | setActiveCharacterId id =>
      simp only [BoxRegistry.step, BoxRegistry.setActiveCharacterId]
      split
      · exact filed
      · exact filed.withActive id
  | evictStale nowMs ttlMs => exact filed.evictStale nowMs ttlMs
  | zoneServerInfo h packet nowMs =>
      exact announce_invariant (fun _ h _ same filed => filed.touch h same) filed h packet nowMs
  | zonePacket clientAddr packet nowMs =>
      exact dispatchZone_invariant (fun _ h _ same filed => filed.touch h same) filed clientAddr
        packet nowMs

theorem filed_empty : Filed nameHash names empty where
  toWellFormed := wellFormed_empty
  known := by simp [empty]
  describes := by simp [empty]

/-- In every run that gives no row's session another name, each row describes a box of the
registry and no id has two rows.
-/
theorem characters_coherent (nameHash : String → UInt64) {names : Set String}
    (injective : Set.InjOn nameHash names) {r : BoxRegistry}
    (reachable : Reachable nameHash (fun r op => Known names op ∧ r.KeepsRows op) r)
    : r.Coherent := by
  have filed : Filed nameHash names r :=
    reachable.invariant filed_empty
      (fun s op permitted filed => filed.step injective permitted.1 permitted.2)
  exact filed.coherent

-----------------------------------------------------------------------------------------
-- The active character
-----------------------------------------------------------------------------------------

/-- Some box carries the active id, or there is no box yet. -/
def ActiveCarried (r : BoxRegistry) : Prop :=
  (r.boxes = [] ∧ r.activeCharacterId = .empty)
    ∨ ∃ b ∈ r.boxes, b.boxId = r.activeCharacterId

/-- No box is given another name while it is a row's session, or while it shares the active
id with another box.
-/
def KeepsActive (r : BoxRegistry) : RegistryOp → Prop
  | .promoteByName h name =>
      ∀ b ∈ r.boxes, b.handle = h → Renames b name →
        (∀ c ∈ r.characters, c.session ≠ h)
          ∧ (b.boxId = r.activeCharacterId
            → ∀ x ∈ r.boxes, x.boxId = r.activeCharacterId → x.handle = h)
  | _ => True

theorem keepsRows_of_keepsActive {op : RegistryOp} (keeps : r.KeepsActive op)
    : r.KeepsRows op := by
  cases op with
  | promoteByName h name => exact fun b member handle renames => (keeps b member handle renames).1
  | _ => trivial

/-- The active id is carried where the boxes carry what they carried. -/
theorem ActiveCarried.of_boxIds (carried : r.ActiveCarried) {t : BoxRegistry}
    (active : t.activeCharacterId = r.activeCharacterId)
    (boxIds : t.boxes.map Box.boxId = r.boxes.map Box.boxId)
    : t.ActiveCarried := by
  rcases carried with ⟨none, empty⟩ | ⟨b, member, id⟩
  · left
    rw [none] at boxIds
    exact ⟨List.map_eq_nil_iff.mp boxIds, active.trans empty⟩
  · right
    have present : r.activeCharacterId ∈ t.boxes.map Box.boxId := by
      rw [boxIds, ← id]
      exact List.mem_map_of_mem member
    obtain ⟨c, there, same⟩ := List.mem_map.mp present
    exact ⟨c, there, same.trans active.symm⟩

theorem ActiveCarried.touch (carried : r.ActiveCarried) (h : Handle) {f : Box → Box}
    (same : ∀ b : Box, b.SameIdentity (f b))
    : (r.update h f).ActiveCarried := by
  refine carried.of_boxIds rfl ?_
  simp only [update, List.map_map]
  refine List.map_congr_left fun b _ => ?_
  simp only [Function.comp]
  split
  · exact (same b).boxId
  · rfl

theorem ActiveCarried.reclassify (carried : r.ActiveCarried) (id : BoxId)
    : (r.reclassify id).ActiveCarried := by
  refine carried.of_boxIds rfl ?_
  simp only [BoxRegistry.reclassify, List.map_map]
  refine List.map_congr_left fun b _ => ?_
  simp only [Function.comp, Box.classified]
  split <;> rfl

theorem ActiveCarried.observe (carried : r.ActiveCarried) (clientIp serverIp : UInt32)
    (clientWorldPort serverWorldPort : UInt16) (nowMs : Int)
    : (r.observe clientIp serverIp clientWorldPort serverWorldPort nowMs).ActiveCarried := by
  unfold BoxRegistry.observe
  split
  · exact carried.touch _ (sameIdentity_observed serverIp nowMs)
  · simp only [ActiveCarried, append]
    right
    split
    · exact ⟨_, List.mem_append_right _ (List.mem_singleton_self _), rfl⟩
    · rename_i active
      rcases carried with ⟨_, empty⟩ | ⟨b, member, id⟩
      · exact absurd empty active
      · exact ⟨b, List.mem_append_left _ member, id⟩

/-- A promoted box carries the active id along. -/
theorem ActiveCarried.promote (carried : r.ActiveCarried) (wellFormed : WellFormed nameHash r)
    {b : Box} (member : b ∈ r.boxes) (name : String)
    : (BoxRegistry.promote nameHash r b name).ActiveCarried := by
  right
  simp only [BoxRegistry.promote, onPromoted]
  split
  · refine ⟨b.named nameHash name, mem_update.mpr ⟨b, member, ?_⟩, rfl⟩
    rw [if_pos rfl]
  · rename_i other
    rcases carried with ⟨none, _⟩ | ⟨x, there, id⟩
    · rw [none] at member
      cases member
    · refine ⟨x, mem_update.mpr ⟨x, there, ?_⟩, id⟩
      rw [if_neg]
      intro same
      rw [wellFormed.eq_of_handle there member same] at id
      exact other id.symm

/-- A promotion adopts the new id or keeps the active one. -/
theorem promotedActive_cases (nameHash : String → UInt64) (r : BoxRegistry) (b : Box) (name : String)
    : promotedActive nameHash r b name = .hashed (nameHash name)
      ∨ promotedActive nameHash r b name = (promote nameHash r b name).activeCharacterId := by
  simp only [promotedActive, adoptActive]
  split_ifs
  · split
    · split_ifs
      · exact Or.inl rfl
      · exact Or.inr rfl
    · exact Or.inl rfl
  · exact Or.inr rfl

theorem ActiveCarried.promotedActive (carried : r.ActiveCarried)
    (wellFormed : WellFormed nameHash r) {b : Box} (member : b ∈ r.boxes) (name : String)
    : ActiveCarried { BoxRegistry.promote nameHash r b name with
        activeCharacterId := BoxRegistry.promotedActive nameHash r b name } := by
  rcases promotedActive_cases nameHash r b name with adopted | kept
  · right
    refine ⟨b.named nameHash name, mem_update.mpr ⟨b, member, ?_⟩, adopted.symm⟩
    rw [if_pos rfl]
  · rw [kept]
    exact carried.promote wellFormed member name

/-- The active character's live session, which its row names or the id itself. -/
theorem Filed.currentBoxFor_active (filed : Filed nameHash names r) (carried : r.ActiveCarried)
    (nonempty : r.boxes ≠ [])
    : ∃ b ∈ r.boxes,
        r.currentBoxFor r.activeCharacterId = some b.handle ∧ b.boxId = r.activeCharacterId := by
  rcases carried with ⟨none, _⟩ | ⟨x, there, id⟩
  · exact absurd none nonempty
  · unfold currentBoxFor
    cases row : r.characters.find? (fun c => decide (c.id = r.activeCharacterId)) with
    | some c =>
        obtain ⟨present, key⟩ := Keyed.of_find?_key row
        obtain ⟨b, member, session, boxId, _⟩ := filed.describes c present
        exact ⟨b, member, by rw [session], boxId.trans key⟩
    | none =>
        cases found : r.findById r.activeCharacterId with
        | none => exact absurd id (Keyed.find?_key_eq_none.mp found x there)
        | some b =>
            obtain ⟨member, boxId⟩ := Keyed.of_find?_key found
            exact ⟨b, member, rfl, boxId⟩

/-- A sweep spares the active character's live session. -/
theorem Filed.evictStale_active (filed : Filed nameHash names r) (carried : r.ActiveCarried)
    (nonempty : r.boxes ≠ []) (nowMs ttlMs : Int)
    : ∃ b ∈ (r.evictStale nowMs ttlMs).boxes, b.boxId = r.activeCharacterId := by
  obtain ⟨b, member, live, id⟩ := filed.currentBoxFor_active carried nonempty
  refine ⟨b, ?_, id⟩
  unfold BoxRegistry.evictStale
  split
  · exact member
  · exact List.mem_filter.mpr ⟨member, by simp [isVictim, live]⟩

theorem evictStale_activeCharacterId (nowMs ttlMs : Int)
    : (r.evictStale nowMs ttlMs).activeCharacterId = r.activeCharacterId := by
  unfold evictStale
  split <;> rfl

theorem Filed.activeCarried_step (filed : Filed nameHash names r) (carried : r.ActiveCarried)
    (op : RegistryOp)
    : (BoxRegistry.step nameHash op r).ActiveCarried := by
  have touch (s : BoxRegistry) (h : Handle) (f : Box → Box)
      (same : ∀ b : Box, b.SameIdentity (f b)) (carried : s.ActiveCarried) :=
    carried.touch h same
  cases op with
  | observe clientIp serverIp clientWorldPort serverWorldPort nowMs =>
      exact carried.observe clientIp serverIp clientWorldPort serverWorldPort nowMs
  | enterWorld h packet =>
      simp only [BoxRegistry.step]
      rcases onDecodedPacket_cases r h packet with same | ⟨b, found, _, _, result⟩
      · rw [same]
        exact carried
      · rw [result]
        exact carried.promote filed.toWellFormed (of_box? found).1 _
  | promoteByName h name =>
      simp only [BoxRegistry.step]
      rcases promoteByName_cases nameHash r h name with ⟨same, _⟩ | ⟨b, found, _, _, result⟩
      · rw [same]
        exact carried
      · rw [result]
        exact (carried.promotedActive filed.toWellFormed (of_box? found).1 name).reclassify _
  | setActiveCharacterId id =>
      simp only [BoxRegistry.step, BoxRegistry.setActiveCharacterId]
      split
      · exact carried
      · rename_i b found
        obtain ⟨member, boxId⟩ := Keyed.of_find?_key found
        exact Or.inr ⟨b, member, boxId⟩
  | evictStale nowMs ttlMs =>
      by_cases nonempty : r.boxes = []
      · simp only [BoxRegistry.step, BoxRegistry.evictStale]
        split
        · exact carried
        · refine carried.of_boxIds rfl ?_
          simp [nonempty]
      · right
        simp only [BoxRegistry.step, evictStale_activeCharacterId]
        exact filed.evictStale_active carried nonempty nowMs ttlMs
  | zoneServerInfo h packet nowMs => exact announce_invariant touch carried h packet nowMs
  | zonePacket clientAddr packet nowMs =>
      exact dispatchZone_invariant touch carried clientAddr packet nowMs

/-- A named box has an id no unnamed box has. -/
theorem WellFormed.named_iff (wellFormed : WellFormed nameHash r) {b c : Box}
    (first : b ∈ r.boxes) (second : c ∈ r.boxes) (same : b.boxId = c.boxId)
    (named : b.displayName ≠ "")
    : c.displayName ≠ "" := by
  intro unnamed
  rw [(wellFormed.identified b first).identified named,
    ((wellFormed.identified c second).unnamed unnamed).1] at same
  cases same

/-- A named character that is active is not replaced by a new one. -/
theorem WellFormed.adoptActive_of_named (wellFormed : WellFormed nameHash r) {x : Box}
    (there : x ∈ r.boxes) (carries : x.boxId = r.activeCharacterId) (named : x.displayName ≠ "")
    (id : BoxId)
    : r.adoptActive id = r := by
  unfold BoxRegistry.adoptActive
  cases active : r.findById r.activeCharacterId with
  | none => exact absurd carries (Keyed.find?_key_eq_none.mp active x there)
  | some y =>
      obtain ⟨present, same⟩ := Keyed.of_find?_key active
      have label := wellFormed.named_iff there present (carries.trans same.symm) named
      simp only
      rw [if_neg label]

/-- Filing a box moves the active id only away from the box's own old id. -/
theorem promote_active_of_other (wellFormed : WellFormed nameHash r) {b x : Box}
    (member : b ∈ r.boxes) (there : x ∈ r.boxes) (carries : x.boxId = r.activeCharacterId)
    (named : x.displayName ≠ "") (name : String)
    (keeps : b.displayName ≠ "" → b.boxId ≠ r.activeCharacterId)
    : (promote nameHash r b name).activeCharacterId = r.activeCharacterId := by
  simp only [promote, onPromoted]
  refine if_neg ?_
  intro own
  by_cases unnamed : b.displayName = ""
  · exact wellFormed.named_iff there member (carries.trans own) named unnamed
  · exact keeps unnamed own.symm

/-- A promotion leaves the active id with a character that another box still plays. -/
theorem Filed.active_kept (filed : Filed nameHash names r) {op : RegistryOp} {h : Handle}
    (promotes : op.promotes = some h) (keeps : r.KeepsActive op) {x : Box} (there : x ∈ r.boxes)
    (other : x.handle ≠ h) (named : x.displayName ≠ "")
    (carries : x.boxId = r.activeCharacterId)
    : (BoxRegistry.step nameHash op r).activeCharacterId = r.activeCharacterId := by
  have wellFormed := filed.toWellFormed
  cases op with
  | enterWorld h' packet =>
      simp only [BoxRegistry.step]
      rcases onDecodedPacket_cases r h' packet with same | ⟨b, found, _, unnamed, result⟩
      · rw [same]
      · rw [result]
        exact promote_active_of_other wellFormed (of_box? found).1 there carries named _
          (fun clash => absurd unnamed clash)
  | promoteByName h' name =>
      cases promotes
      simp only [BoxRegistry.step]
      rcases promoteByName_cases nameHash r h name with ⟨same, _⟩ | ⟨b, found, nonempty, differs, result⟩
      · rw [same]
      · rw [result]
        obtain ⟨member, handle⟩ := of_box? found
        have formed := wellFormed.promote member nonempty
        have kept : (BoxRegistry.promote nameHash r b name).activeCharacterId
            = r.activeCharacterId := by
          refine promote_active_of_other wellFormed member there carries named name ?_
          intro labelled own
          exact other ((keeps b member handle ⟨labelled, nonempty, differs⟩).2 own x there carries)
        have survivor : x ∈ (BoxRegistry.promote nameHash r b name).boxes := by
          refine mem_update.mpr ⟨x, there, ?_⟩
          rw [if_neg]
          exact fun same => other (same.trans handle)
        have idle := formed.adoptActive_of_named survivor (carries.trans kept.symm) named
          (.hashed (nameHash name))
        simp only [BoxRegistry.reclassify, BoxRegistry.promotedActive, idle, ite_self]
        exact kept
  | _ => cases promotes

/-- In every run that renames no row's session and no box that shares the active id, the
active id resolves to a live box that carries it, a sweep leaves such a box, and a promotion
does not take the id from a character that another box still plays.
-/
theorem active_resolves (nameHash : String → UInt64) {names : Set String}
    (injective : Set.InjOn nameHash names) {r : BoxRegistry}
    (reachable : Reachable nameHash (fun r op => Known names op ∧ r.KeepsActive op) r)
    (nonempty : r.boxes ≠ [])
    : (∃ b, r.findById r.activeCharacterId = some b)
      ∧ (∃ b ∈ r.boxes,
        r.currentBoxFor r.activeCharacterId = some b.handle ∧ b.boxId = r.activeCharacterId)
      ∧ (∀ nowMs ttlMs, ∃ b ∈ (r.evictStale nowMs ttlMs).boxes, b.boxId = r.activeCharacterId)
      ∧ ∀ op h, op.promotes = some h → r.KeepsActive op →
          ∀ x ∈ r.boxes, x.handle ≠ h → x.displayName ≠ "" → x.boxId = r.activeCharacterId →
            (step nameHash op r).activeCharacterId = r.activeCharacterId := by
  obtain ⟨filed, carried⟩ : Filed nameHash names r ∧ r.ActiveCarried := by
    refine reachable.invariant (I := fun s => Filed nameHash names s ∧ s.ActiveCarried)
      ⟨filed_empty, Or.inl ⟨rfl, rfl⟩⟩ ?_
    intro s op permitted both
    exact ⟨both.1.step injective permitted.1 (keepsRows_of_keepsActive permitted.2),
      both.1.activeCarried_step both.2 op⟩
  refine ⟨?_, filed.currentBoxFor_active carried nonempty,
    filed.evictStale_active carried nonempty,
    fun op h promotes keeps x there other named carries =>
      filed.active_kept promotes keeps there other named carries⟩
  obtain ⟨b, member, _, id⟩ := filed.currentBoxFor_active carried nonempty
  cases found : r.findById r.activeCharacterId with
  | none => exact absurd id (Keyed.find?_key_eq_none.mp found b member)
  | some c => exact ⟨c, rfl⟩

-----------------------------------------------------------------------------------------
-- Two boxes of one host
-----------------------------------------------------------------------------------------

/-- The digests of two names. -/
def sampleHash (name : String) : UInt64 :=
  if name = "Alpha" then 0xb1a96dd646bccaa2 else if name = "Beta" then 0x703390318bd55aef
  else 0

def sampleNames : Set String := {"Alpha", "Beta"}

theorem sampleHash_injOn : Set.InjOn sampleHash sampleNames := by
  rintro a (rfl | rfl) b (rfl | rfl) same
  · rfl
  · exact absurd same (by decide)
  · exact absurd same (by decide)
  · rfl

/-- Two world sessions of one client address. -/
def twoBoxes : List RegistryOp :=
  [.observe 0x0a0d0008 0x0a0d00cd 1000 9016 10, .observe 0x0a0d0008 0x0a0d00cd 1001 9016 20]

/-- A run of known names that keeps the rows. -/
theorem reachable_exec {ops : List RegistryOp} {allowed : BoxRegistry → RegistryOp → Prop}
    (permits : Machine.Permits (step sampleHash) allowed empty ops)
    : Reachable sampleHash allowed (Machine.exec (step sampleHash) empty ops) :=
  Machine.reaches_exec permits

instance : DecidablePred (· ∈ sampleNames) :=
  fun name => inferInstanceAs (Decidable (name = "Alpha" ∨ name = "Beta"))

instance (b : Box) (name : String) : Decidable (Renames b name) :=
  inferInstanceAs (Decidable (_ ∧ _ ∧ _))

instance (op : RegistryOp) : Decidable (Known sampleNames op) :=
  inferInstanceAs (Decidable (∀ name ∈ op.names, name ∈ sampleNames))

instance (r : BoxRegistry) (op : RegistryOp) : Decidable (r.KeepsRows op) :=
  match op with
  | .promoteByName h name =>
      inferInstanceAs (Decidable
        (∀ b ∈ r.boxes, b.handle = h → Renames b name → ∀ c ∈ r.characters, c.session ≠ h))
  | .observe _ _ _ _ _ | .enterWorld _ _ | .setActiveCharacterId _ | .evictStale _ _
  | .zoneServerInfo _ _ _ | .zonePacket _ _ _ => isTrue trivial

instance (r : BoxRegistry) (op : RegistryOp) : Decidable (r.KeepsActive op) :=
  match op with
  | .promoteByName h name =>
      inferInstanceAs (Decidable
        (∀ b ∈ r.boxes, b.handle = h → Renames b name →
          (∀ c ∈ r.characters, c.session ≠ h)
            ∧ (b.boxId = r.activeCharacterId
              → ∀ x ∈ r.boxes, x.boxId = r.activeCharacterId → x.handle = h)))
  | .observe _ _ _ _ _ | .enterWorld _ _ | .setActiveCharacterId _ | .evictStale _ _
  | .zoneServerInfo _ _ _ | .zonePacket _ _ _ => isTrue trivial

/-- Both sessions of a character are filed under one row. -/
theorem characters_coherent_rehandshake
    : (Machine.exec (step sampleHash) empty
        (twoBoxes ++ [.promoteByName 0 "Alpha", .promoteByName 1 "Alpha"])).Coherent :=
  characters_coherent sampleHash sampleHash_injOn (reachable_exec (by decide))

/-- A box that changes its name leaves a row that describes no box. -/
theorem characters_coherent_renamed
    : ¬ (Machine.exec (step sampleHash) empty
        (twoBoxes ++ [.promoteByName 0 "Alpha", .promoteByName 0 "Beta"])).Coherent := by
  intro coherent
  obtain ⟨b, member, session, id, name⟩ :=
    coherent.describes ⟨"Alpha", .hashed (sampleHash "Alpha"), 0⟩ (by decide)
  revert b
  decide

/-- The registry after both boxes have been promoted to one character. -/
def rehandshake : BoxRegistry :=
  Machine.exec (step sampleHash) empty
    (twoBoxes ++ [.promoteByName 0 "Alpha", .promoteByName 1 "Alpha"])

theorem active_resolves_rehandshake
    : (∃ b, rehandshake.findById rehandshake.activeCharacterId = some b)
      ∧ ∃ b ∈ rehandshake.boxes,
        rehandshake.currentBoxFor rehandshake.activeCharacterId = some b.handle
          ∧ b.boxId = rehandshake.activeCharacterId := by
  have resolves := active_resolves sampleHash sampleHash_injOn (r := rehandshake)
    (reachable_exec (by decide)) (by decide)
  exact ⟨resolves.1, resolves.2.1⟩

/-- A box that changes its name takes the active id with it, while another box still plays
the character.
-/
theorem active_resolves_renamed
    : Reachable sampleHash (fun _ op => Known sampleNames op) rehandshake
      ∧ (∃ x ∈ rehandshake.boxes,
        x.handle ≠ 0 ∧ x.displayName ≠ "" ∧ x.boxId = rehandshake.activeCharacterId)
      ∧ (step sampleHash (.promoteByName 0 "Beta") rehandshake).activeCharacterId
        ≠ rehandshake.activeCharacterId :=
  ⟨reachable_exec (by decide), by decide, by decide⟩

end BoxRegistry
end Scry
