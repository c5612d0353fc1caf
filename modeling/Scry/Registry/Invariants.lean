import Scry.Library.Keyed
import Scry.Registry.Routing

/-! What every operation keeps of a registry.
Boxes are told apart by handle and by world tuple, the first one is primary, a box is either
unnamed under its placeholder or under its name's id, and every row of the store belongs to
a box that is there.
-/

namespace Scry

/-- A box without a name has its placeholder id and is pending; one with a name has the
name's id.
-/
structure Box.Identified (nameHash : String → UInt64) (b : Box) : Prop where
  unnamed : b.displayName = "" → b.boxId = b.placeholderId ∧ b.state = .Pending
  identified : b.displayName ≠ "" → b.boxId = .hashed (nameHash b.displayName)

/-- Another value of the same box. -/
structure Box.SameSession (b c : Box) : Prop where
  handle : c.handle = b.handle
  worldTuple : c.worldTuple = b.worldTuple
  isPrimary : c.isPrimary = b.isPrimary

/-- Another value of the same box that plays the same character. -/
structure Box.SameIdentity (b c : Box) : Prop extends b.SameSession c where
  boxId : c.boxId = b.boxId
  displayName : c.displayName = b.displayName
  state : c.state = b.state

namespace BoxRegistry

/-- The first box is primary and no other one is. -/
def PrimaryFirst : List Box → Prop
  | [] => True
  | first :: rest => first.isPrimary = true ∧ ∀ b ∈ rest, b.isPrimary = false

/-- The invariant of every run. -/
structure WellFormed (nameHash : String → UInt64) (r : BoxRegistry) : Prop where
  handles : (r.boxes.map Box.handle).Nodup
  allocated : ∀ b ∈ r.boxes, b.handle < r.nextHandle
  worldTuples : (r.boxes.map Box.worldTuple).Nodup
  primaryFirst : PrimaryFirst r.boxes
  identified : ∀ b ∈ r.boxes, b.Identified nameHash
  rows : (r.characters.map Character.id).Nodup
  rowIds : ∀ c ∈ r.characters, c.name ≠ "" ∧ c.id = .hashed (nameHash c.name)
  live : ∀ c ∈ r.characters, ∃ b ∈ r.boxes, b.handle = c.session

variable {nameHash : String → UInt64} {r : BoxRegistry}

theorem wellFormed_empty : WellFormed nameHash empty where
  handles := List.nodup_nil
  allocated := by simp [empty]
  worldTuples := List.nodup_nil
  primaryFirst := trivial
  identified := by simp [empty]
  rows := List.nodup_nil
  rowIds := by simp [empty]
  live := by simp [empty]

-----------------------------------------------------------------------------------------
-- Pointers
-----------------------------------------------------------------------------------------

theorem of_box? {h : Handle} {b : Box} (found : r.box? h = some b)
    : b ∈ r.boxes ∧ b.handle = h :=
  Keyed.of_find?_key found

theorem WellFormed.box?_handle (wellFormed : WellFormed nameHash r) {b : Box}
    (member : b ∈ r.boxes)
    : r.box? b.handle = some b :=
  Keyed.find?_key wellFormed.handles member

theorem WellFormed.eq_of_handle (wellFormed : WellFormed nameHash r) {b c : Box}
    (first : b ∈ r.boxes) (second : c ∈ r.boxes) (same : b.handle = c.handle)
    : b = c :=
  List.inj_on_of_nodup_map wellFormed.handles first second same

/-- The value a write leaves at an element. -/
theorem mem_update {h : Handle} {f : Box → Box} {c : Box}
    : c ∈ (r.update h f).boxes
      ↔ ∃ b ∈ r.boxes, c = if b.handle = h then f b else b := by
  simp [update, eq_comm]

-----------------------------------------------------------------------------------------
-- The store
-----------------------------------------------------------------------------------------

theorem upsertCharacter_ids (boxes : List Box) (id : BoxId) (name : String) (session : Box)
    (rows : List Character)
    : (upsertCharacter boxes id name session rows).map Character.id
      = if id ∈ rows.map Character.id then rows.map Character.id
        else rows.map Character.id ++ [id] := by
  induction rows with
  | nil => simp [upsertCharacter]
  | cons c rest ih =>
      by_cases same : c.id = id
      · simp [upsertCharacter, same]
      · have other : id ≠ c.id := fun h => same h.symm
        simp only [upsertCharacter, same, if_false, List.map_cons, ih, List.mem_cons, other,
          false_or]
        split <;> rfl

/-- A row after an upsert: another character's row as it was, or the character's, with the
session it had or the new one.
-/
theorem mem_upsertCharacter {boxes : List Box} {id : BoxId} {name : String} {session : Box}
    {rows : List Character} (unique : (rows.map Character.id).Nodup) {c : Character}
    (member : c ∈ upsertCharacter boxes id name session rows)
    : (c ∈ rows ∧ c.id ≠ id)
      ∨ (c.id = id
        ∧ c.name = name
        ∧ (c.session = session.handle
          ∨ ∃ old ∈ rows,
              old.id = id ∧ c.session = old.session ∧ adopts boxes old session = false)) := by
  induction rows with
  | nil =>
      rw [List.mem_singleton.mp member]
      exact Or.inr ⟨rfl, rfl, Or.inl rfl⟩
  | cons first rest ih =>
      rw [List.map_cons, List.nodup_cons] at unique
      by_cases same : first.id = id
      · simp only [upsertCharacter, same, if_true, List.mem_cons] at member
        rcases member with rfl | later
        · refine Or.inr ⟨rfl, rfl, ?_⟩
          cases taken : adopts boxes first session with
          | true => exact Or.inl (by simp)
          | false => exact Or.inr ⟨first, List.mem_cons_self, same, by simp, taken⟩
        · refine Or.inl ⟨List.mem_cons_of_mem _ later, fun clash => unique.1 ?_⟩
          rw [same, ← clash]
          exact List.mem_map_of_mem later
      · simp only [upsertCharacter, same, if_false, List.mem_cons] at member
        rcases member with rfl | later
        · exact Or.inl ⟨List.mem_cons_self, same⟩
        · rcases ih unique.2 later with ⟨kept, other⟩ | ⟨key, label, live⟩
          · exact Or.inl ⟨List.mem_cons_of_mem _ kept, other⟩
          · refine Or.inr ⟨key, label, live.imp_right ?_⟩
            rintro ⟨old, found, rest⟩
            exact ⟨old, List.mem_cons_of_mem _ found, rest⟩

-----------------------------------------------------------------------------------------
-- What each part of an operation keeps
-----------------------------------------------------------------------------------------

theorem sameSession_classified (id : BoxId) (live : Option Handle) (b : Box)
    : b.SameSession (b.classified id live) := by
  unfold Box.classified
  split <;> exact ⟨rfl, rfl, rfl⟩

/-- Replacing boxes by other values of themselves. -/
theorem WellFormed.mapBoxes (wellFormed : WellFormed nameHash r) {g : Box → Box}
    (same : ∀ b ∈ r.boxes, b.SameSession (g b))
    (identified : ∀ b ∈ r.boxes, (g b).Identified nameHash)
    : WellFormed nameHash { r with boxes := r.boxes.map g } where
  handles := by
    have keys : (r.boxes.map g).map Box.handle = r.boxes.map Box.handle := by
      rw [List.map_map]
      exact List.map_congr_left fun b member => (same b member).handle
    exact keys ▸ wellFormed.handles
  allocated := by
    intro c member
    obtain ⟨b, present, rfl⟩ := List.mem_map.mp member
    rw [(same b present).handle]
    exact wellFormed.allocated b present
  worldTuples := by
    have keys : (r.boxes.map g).map Box.worldTuple = r.boxes.map Box.worldTuple := by
      rw [List.map_map]
      exact List.map_congr_left fun b member => (same b member).worldTuple
    exact keys ▸ wellFormed.worldTuples
  primaryFirst := by
    have primary := wellFormed.primaryFirst
    revert same primary
    cases r.boxes with
    | nil => exact fun _ _ => trivial
    | cons first rest =>
        intro same primary
        refine ⟨(same first List.mem_cons_self).isPrimary.trans primary.1, ?_⟩
        intro c member
        obtain ⟨b, present, rfl⟩ := List.mem_map.mp member
        exact (same b (List.mem_cons_of_mem _ present)).isPrimary.trans (primary.2 b present)
  identified := by
    intro c member
    obtain ⟨b, present, rfl⟩ := List.mem_map.mp member
    exact identified b present
  rows := wellFormed.rows
  rowIds := wellFormed.rowIds
  live := by
    intro c row
    obtain ⟨b, present, session⟩ := wellFormed.live c row
    exact ⟨g b, List.mem_map_of_mem present, (same b present).handle.trans session⟩

/-- Writing through a pointer, when every box under it stays itself. -/
theorem WellFormed.update (wellFormed : WellFormed nameHash r) {h : Handle} {f : Box → Box}
    (same : ∀ b ∈ r.boxes, b.handle = h → b.SameSession (f b))
    (identified : ∀ b ∈ r.boxes, b.handle = h → (f b).Identified nameHash)
    : WellFormed nameHash (r.update h f) := by
  refine wellFormed.mapBoxes (fun b member => ?_) (fun b member => ?_)
  · split
    · rename_i written
      exact same b member written
    · exact ⟨rfl, rfl, rfl⟩
  · split
    · rename_i written
      exact identified b member written
    · exact wellFormed.identified b member

theorem WellFormed.withActive (wellFormed : WellFormed nameHash r) (id : BoxId)
    : WellFormed nameHash { r with activeCharacterId := id } :=
  { wellFormed with }

/-- Filing a named box. -/
theorem WellFormed.onPromoted (wellFormed : WellFormed nameHash r) {b : Box}
    (member : b ∈ r.boxes) (name : b.displayName ≠ "") (oldBoxId : BoxId)
    : WellFormed nameHash (r.onPromoted b oldBoxId) where
  handles := wellFormed.handles
  allocated := wellFormed.allocated
  worldTuples := wellFormed.worldTuples
  primaryFirst := wellFormed.primaryFirst
  identified := wellFormed.identified
  rows := by
    simp only [BoxRegistry.onPromoted, upsertCharacter_ids]
    split
    · exact wellFormed.rows
    · rename_i fresh
      exact List.nodup_append.mpr ⟨wellFormed.rows, List.nodup_singleton _, by
        intro old present new added clash
        rw [List.mem_singleton.mp added] at clash
        exact fresh (clash ▸ present)⟩
  rowIds := by
    intro c row
    rcases mem_upsertCharacter wellFormed.rows row with ⟨kept, _⟩ | ⟨key, label, _⟩
    · exact wellFormed.rowIds c kept
    · rw [key, label]
      exact ⟨name, (wellFormed.identified b member).identified name⟩
  live := by
    intro c row
    rcases mem_upsertCharacter wellFormed.rows row with
      ⟨kept, _⟩ | ⟨_, _, session | ⟨old, present, _, session, _⟩⟩
    · exact wellFormed.live c kept
    · exact ⟨b, member, session.symm⟩
    · rw [session]
      exact wellFormed.live old present

/-- Dropping boxes other than the first, and the rows of the dropped. -/
theorem WellFormed.filter (wellFormed : WellFormed nameHash r) {keep : Box → Bool}
    {keepRow : Character → Bool} (primary : ∀ b ∈ r.boxes, b.isPrimary = true → keep b = true)
    (rows
      : ∀ c ∈ r.characters,
          keepRow c = true → ∃ b ∈ r.boxes, b.handle = c.session ∧ keep b = true)
    : WellFormed nameHash
        { r with boxes := r.boxes.filter keep, characters := r.characters.filter keepRow } where
  handles := wellFormed.handles.sublist (List.filter_sublist.map _)
  allocated b member := wellFormed.allocated b (List.mem_of_mem_filter member)
  worldTuples := wellFormed.worldTuples.sublist (List.filter_sublist.map _)
  primaryFirst := by
    have first := wellFormed.primaryFirst
    revert primary first
    cases r.boxes with
    | nil => exact fun _ _ => trivial
    | cons first rest =>
        intro primary flags
        rw [List.filter_cons_of_pos (primary first List.mem_cons_self flags.1)]
        exact ⟨flags.1, fun b member => flags.2 b (List.mem_of_mem_filter member)⟩
  identified b member := wellFormed.identified b (List.mem_of_mem_filter member)
  rows := wellFormed.rows.sublist (List.filter_sublist.map _)
  rowIds c row := wellFormed.rowIds c (List.mem_of_mem_filter row)
  live := by
    intro c row
    obtain ⟨present, kept⟩ := List.mem_filter.mp row
    obtain ⟨b, member, session, keepBox⟩ := rows c present kept
    exact ⟨b, List.mem_filter.mpr ⟨member, keepBox⟩, session⟩

/-- Appending a box under a fresh handle and a world tuple no box has. -/
theorem WellFormed.append (wellFormed : WellFormed nameHash r) {b : Box}
    (handle : b.handle = r.nextHandle) (tuple : ∀ c ∈ r.boxes, c.worldTuple ≠ b.worldTuple)
    (primary : b.isPrimary = r.boxes.isEmpty) (identified : b.Identified nameHash)
    : WellFormed nameHash (r.append b) where
  handles := by
    simp only [BoxRegistry.append, List.map_append, List.map_cons, List.map_nil]
    refine List.nodup_append.mpr ⟨wellFormed.handles, List.nodup_singleton _, ?_⟩
    intro old present new added clash
    obtain ⟨c, member, rfl⟩ := List.mem_map.mp present
    rw [List.mem_singleton.mp added, handle] at clash
    exact Nat.lt_irrefl _ (clash ▸ wellFormed.allocated c member)
  allocated := by
    intro c member
    rcases List.mem_append.mp member with old | new
    · exact Nat.lt_succ_of_lt (wellFormed.allocated c old)
    · rw [List.mem_singleton.mp new, handle]
      exact Nat.lt_succ_self _
  worldTuples := by
    simp only [BoxRegistry.append, List.map_append, List.map_cons, List.map_nil]
    refine List.nodup_append.mpr ⟨wellFormed.worldTuples, List.nodup_singleton _, ?_⟩
    intro old present new added clash
    obtain ⟨c, member, rfl⟩ := List.mem_map.mp present
    rw [List.mem_singleton.mp added] at clash
    exact tuple c member clash
  primaryFirst := by
    have flags := wellFormed.primaryFirst
    simp only [BoxRegistry.append]
    revert flags primary
    cases r.boxes with
    | nil =>
        intro primary _
        exact ⟨primary, by simp⟩
    | cons first rest =>
        intro primary flags
        refine ⟨flags.1, fun c member => ?_⟩
        rcases List.mem_append.mp member with old | new
        · exact flags.2 c old
        · rw [List.mem_singleton.mp new]
          exact primary
  identified := by
    intro c member
    rcases List.mem_append.mp member with old | new
    · exact wellFormed.identified c old
    · rw [List.mem_singleton.mp new]
      exact identified
  rows := wellFormed.rows
  rowIds := wellFormed.rowIds
  live := by
    intro c row
    obtain ⟨old, member, session⟩ := wellFormed.live c row
    exact ⟨old, List.mem_append_left _ member, session⟩

-----------------------------------------------------------------------------------------
-- What each operation does
-----------------------------------------------------------------------------------------

theorem lookupByWorld_eq_none {clientIp : UInt32} {clientWorldPort serverWorldPort : UInt16}
    (missing : r.lookupByWorld clientIp clientWorldPort serverWorldPort = none)
    : ∀ b ∈ r.boxes, b.worldTuple ≠ (clientIp, clientWorldPort, serverWorldPort) := by
  intro b member same
  have differs := List.find?_eq_none.mp missing b member
  simp only [Box.worldTuple, Prod.mk.injEq] at same
  simp [same] at differs

/-- The box `observe` makes is identified by its placeholder. -/
theorem created_identified (clientIp serverIp : UInt32) (clientWorldPort serverWorldPort : UInt16)
    (nowMs : Int)
    : (r.created clientIp serverIp clientWorldPort serverWorldPort nowMs).Identified nameHash where
  unnamed _ := ⟨rfl, rfl⟩
  identified name := absurd rfl name

theorem named_identified (b : Box) {name : String} (nonempty : name ≠ "")
    : (b.named nameHash name).Identified nameHash where
  unnamed empty := absurd empty nonempty
  identified _ := rfl

/-- Reclassifying a character's boxes leaves unnamed boxes pending. -/
theorem classified_identified {b : Box} (identified : b.Identified nameHash) (digest : UInt64)
    (live : Option Handle)
    : (b.classified (.hashed digest) live).Identified nameHash := by
  unfold Box.classified
  split
  · rename_i same
    refine ⟨fun unnamed => ?_, identified.identified⟩
    have placeholder := (identified.unnamed unnamed).1
    rw [same] at placeholder
    cases placeholder
  · exact identified

theorem adoptActive_eq (id : BoxId)
    : r.adoptActive id = { r with activeCharacterId := (r.adoptActive id).activeCharacterId } := by
  unfold adoptActive
  split
  · split <;> rfl
  · rfl

/-- The active id after a promotion has adopted or kept it. -/
def promotedActive (nameHash : String → UInt64) (r : BoxRegistry) (b : Box) (name : String)
    : BoxId :=
  let promoted := promote nameHash r b name
  if (promoted.lookupByName name b.handle).isNone then
    (promoted.adoptActive (.hashed (nameHash name))).activeCharacterId
  else promoted.activeCharacterId

/-- `promoteByName` does nothing, or promotes, settles the active id and reclassifies. -/
theorem promoteByName_cases (nameHash : String → UInt64) (r : BoxRegistry) (h : Handle)
    (name : String)
    : (r.promoteByName nameHash h name = r
        ∧ ∀ b, r.box? h = some b → name = "" ∨ b.displayName = name)
      ∨ ∃ b,
          r.box? h = some b
            ∧ name ≠ ""
            ∧ b.displayName ≠ name
            ∧ r.promoteByName nameHash h name
              = ({ promote nameHash r b name with
                    activeCharacterId := promotedActive nameHash r b name }).reclassify
                  (.hashed (nameHash name)) := by
  unfold promoteByName
  cases found : r.box? h with
  | none => exact Or.inl ⟨rfl, by simp⟩
  | some b =>
      simp only
      split_ifs with empty same fresh
      · exact Or.inl ⟨rfl, fun _ _ => Or.inl empty⟩
      · refine Or.inl ⟨rfl, ?_⟩
        intro c same'
        cases same'
        exact Or.inr same
      · refine Or.inr ⟨b, rfl, empty, same, ?_⟩
        have handle := (of_box? found).2
        simp only [promotedActive, handle, fresh, if_true]
        rw [← adoptActive_eq]
      · refine Or.inr ⟨b, rfl, empty, same, ?_⟩
        have handle := (of_box? found).2
        simp only [promotedActive, handle, fresh]
        rfl

/-- `OP_EnterWorld` does nothing, or promotes an unnamed box. -/
theorem enterWorld_cases (r : BoxRegistry) (h : Handle) (name : String)
    : NamePromoter.enterWorld nameHash r h name = r
      ∨ ∃ b,
          r.box? h = some b
            ∧ name ≠ ""
            ∧ b.displayName = ""
            ∧ NamePromoter.enterWorld nameHash r h name = promote nameHash r b name := by
  unfold NamePromoter.enterWorld
  cases found : r.box? h with
  | none => exact Or.inl rfl
  | some b =>
      simp only
      split_ifs with unnamed empty
      · exact Or.inl rfl
      · exact Or.inl rfl
      · exact Or.inr ⟨b, rfl, empty, not_not.mp unnamed, rfl⟩

/-- So does the packet that carries a name. -/
theorem onDecodedPacket_cases (r : BoxRegistry) (h : Handle) (packet : DecodedPacket)
    : NamePromoter.onDecodedPacket nameHash r h packet = r
      ∨ ∃ b,
          r.box? h = some b
            ∧ NamePromoter.characterName packet.data ≠ ""
            ∧ b.displayName = ""
            ∧ NamePromoter.onDecodedPacket nameHash r h packet
              = promote nameHash r b (NamePromoter.characterName packet.data) := by
  unfold NamePromoter.onDecodedPacket
  split_ifs
  · exact Or.inl rfl
  · exact Or.inl rfl
  · exact Or.inl rfl
  · exact enterWorld_cases r h _

/-- The eviction guards, seen from a box that is not reaped. -/
theorem not_isVictim_of_isPrimary {nowMs ttlMs : Int} {b : Box} (primary : b.isPrimary = true)
    : r.isVictim nowMs ttlMs b = false := by
  simp [isVictim, primary]

/-- A row outlives a sweep exactly when its session does. -/
theorem WellFormed.row_kept_iff (wellFormed : WellFormed nameHash r) {nowMs ttlMs : Int}
    {c : Character} {b : Box} (member : b ∈ r.boxes) (session : b.handle = c.session)
    : c.session ∉ (r.boxes.filter (r.isVictim nowMs ttlMs)).map Box.handle
      ↔ r.isVictim nowMs ttlMs b = false := by
  constructor
  · intro spared
    by_contra victim
    refine spared (List.mem_map.mpr ⟨b, List.mem_filter.mpr ⟨member, ?_⟩, session⟩)
    simpa using victim
  · intro alive reaped
    obtain ⟨victim, filtered, same⟩ := List.mem_map.mp reaped
    obtain ⟨present, dead⟩ := List.mem_filter.mp filtered
    rw [wellFormed.eq_of_handle present member (same.trans session.symm), alive] at dead
    cases dead

/-- Looking at more boxes ends with one of them or with the best so far, whichever is latest,
by induction on the boxes.
-/
theorem foldl_laterOf {time : Box → Int} {boxes : List Box} {best : Option Box} {b : Box}
    (found : boxes.foldl (laterOf time) best = some b)
    : (b ∈ best ∨ b ∈ boxes)
      ∧ (∀ old ∈ best, time old ≤ time b)
      ∧ ∀ c ∈ boxes, time c ≤ time b := by
  induction boxes generalizing best with
  | nil =>
      simp only [List.foldl_nil] at found
      subst found
      simp
  | cons c rest ih =>
      obtain ⟨source, bound, later⟩ := ih found
      cases best with
      | none =>
          have below := bound c rfl
          simp only [laterOf, Option.mem_some] at source
          exact ⟨Or.inr (by simpa [eq_comm] using source), by simp, by simpa [below] using later⟩
      | some old =>
          simp only [laterOf] at source bound
          split_ifs at source bound with less
          · have below := bound c rfl
            refine ⟨Or.inr (by simpa [eq_comm] using source), ?_, by simpa [below] using later⟩
            intro other same
            cases same
            omega
          · have below := bound old rfl
            refine ⟨?_, bound, ?_⟩
            · exact source.imp_right (List.mem_cons_of_mem c)
            · intro other member
              rcases List.mem_cons.mp member with rfl | member
              · omega
              · exact later other member

/-- The latest of some boxes is one of them, and none is later. -/
theorem latest_eq_some {time : Box → Int} {boxes : List Box} {b : Box}
    (found : latest time boxes = some b)
    : b ∈ boxes ∧ ∀ c ∈ boxes, time c ≤ time b := by
  obtain ⟨source, _, later⟩ := foldl_laterOf found
  exact ⟨source.resolve_left (by simp), later⟩

/-- A box is found unless there are none. -/
theorem latest_isSome (time : Box → Int) {boxes : List Box} (nonempty : boxes ≠ [])
    : (latest time boxes).isSome = true := by
  have keeps (best : Box) (rest : List Box)
      : (rest.foldl (laterOf time) (some best)).isSome = true := by
    induction rest generalizing best with
    | nil => rfl
    | cons c rest ih =>
        simp only [List.foldl_cons, laterOf]
        split <;> exact ih _
  cases boxes with
  | nil => exact absurd rfl nonempty
  | cons first rest => exact keeps first rest

-----------------------------------------------------------------------------------------
-- Routing
-----------------------------------------------------------------------------------------

theorem of_lookupBoundZone {clientIp : UInt32} {clientPort serverPort : UInt16} {b : Box}
    (found : r.lookupBoundZone clientIp clientPort serverPort = some b)
    : b ∈ r.boxes ∧ b.zoneTuple = (clientIp, clientPort, serverPort) := by
  have holds := List.find?_some found
  refine ⟨List.mem_of_find?_eq_some found, ?_⟩
  simpa [Box.zoneTuple] using holds

theorem lookupBoundZone_eq_none {clientIp : UInt32} {clientPort serverPort : UInt16}
    : r.lookupBoundZone clientIp clientPort serverPort = none
      ↔ ∀ b ∈ r.boxes, b.zoneTuple ≠ (clientIp, clientPort, serverPort) := by
  simp [lookupBoundZone, List.find?_eq_none, Box.zoneTuple]

/-- The box of an unclaimed or announced zone session is the client's and unbound. -/
theorem unbound_of_expectsZone {clientIp serverIp : UInt32} {serverPort : UInt16} {b : Box}
    (expects : b.expectsZone clientIp serverIp serverPort = true)
    : b.clientIp = clientIp ∧ b.zoneClientPort = 0 := by
  simp only [Box.expectsZone, Bool.and_eq_true, beq_iff_eq] at expects
  exact expects.1.1

theorem unbound_of_recentlyInWorld {clientIp serverIp : UInt32} {nowMs windowMs : Int} {b : Box}
    (recent : b.recentlyInWorld clientIp serverIp nowMs windowMs = true)
    : b.clientIp = clientIp ∧ b.zoneClientPort = 0 := by
  simp only [Box.recentlyInWorld, Bool.and_eq_true, beq_iff_eq] at recent
  exact recent.1.1.1.1

/-- What `pickBox` does: it finds the box bound to the packet's tuple in one direction, or
binds an unbound box of the client to it, or leaves the registry as it is.
-/
theorem pickBox_cases (r : BoxRegistry) (packet : ZonePacket) (nowMs : Int)
    : (∃ b ∈ r.boxes,
        b.zoneTuple = (packet.srcIp, packet.srcPort, packet.dstPort)
          ∧ r.pickBox packet nowMs = (some ⟨b.handle, true⟩, r))
      ∨ (∃ b ∈ r.boxes,
        b.zoneTuple = (packet.dstIp, packet.dstPort, packet.srcPort)
          ∧ r.pickBox packet nowMs = (some ⟨b.handle, false⟩, r))
      ∨ ((∀ b ∈ r.boxes, b.zoneTuple ≠ (packet.srcIp, packet.srcPort, packet.dstPort))
        ∧ (∀ b ∈ r.boxes, b.zoneTuple ≠ (packet.dstIp, packet.dstPort, packet.srcPort))
        ∧ ((∃ b ∈ r.boxes,
            b.zoneClientPort = 0
              ∧ b.clientIp = packet.srcIp
              ∧ r.pickBox packet nowMs
                = (some ⟨b.handle, true⟩,
                  r.update b.handle (.bound packet.srcPort packet.dstPort)))
          ∨ (∃ b ∈ r.boxes,
            b.zoneClientPort = 0
              ∧ b.clientIp = packet.dstIp
              ∧ r.pickBox packet nowMs
                = (some ⟨b.handle, false⟩,
                  r.update b.handle (.bound packet.dstPort packet.srcPort)))
          ∨ r.pickBox packet nowMs = (none, r))) := by
  unfold pickBox
  cases source : r.lookupBoundZone packet.srcIp packet.srcPort packet.dstPort with
  | some b =>
      obtain ⟨member, tuple⟩ := of_lookupBoundZone source
      exact Or.inl ⟨b, member, tuple, rfl⟩
  | none =>
  cases target : r.lookupBoundZone packet.dstIp packet.dstPort packet.srcPort with
  | some b =>
      obtain ⟨member, tuple⟩ := of_lookupBoundZone target
      exact Or.inr (Or.inl ⟨b, member, tuple, rfl⟩)
  | none =>
  refine Or.inr (Or.inr
    ⟨lookupBoundZone_eq_none.mp source, lookupBoundZone_eq_none.mp target, ?_⟩)
  simp only
  cases toServer : r.lookupByExpectedZone packet.srcIp packet.dstIp packet.dstPort with
  | some b =>
      obtain ⟨member, expects⟩ := List.mem_filter.mp (latest_eq_some toServer).1
      obtain ⟨client, unbound⟩ := unbound_of_expectsZone expects
      exact Or.inl ⟨b, member, unbound, client, rfl⟩
  | none =>
  cases toClient : r.lookupByExpectedZone packet.dstIp packet.srcIp packet.srcPort with
  | some b =>
      obtain ⟨member, expects⟩ := List.mem_filter.mp (latest_eq_some toClient).1
      obtain ⟨client, unbound⟩ := unbound_of_expectsZone expects
      exact Or.inr (Or.inl ⟨b, member, unbound, client, rfl⟩)
  | none =>
      simp only
      split_ifs
      · cases recent
          : r.lookupByRecentWorld packet.srcIp packet.dstIp nowMs kZoneBindWindowMs with
        | some b =>
            obtain ⟨member, inWorld⟩ := List.mem_filter.mp (latest_eq_some recent).1
            obtain ⟨client, unbound⟩ := unbound_of_recentlyInWorld inWorld
            exact Or.inl ⟨b, member, unbound, client, rfl⟩
        | none => exact Or.inr (Or.inr rfl)
      · exact Or.inr (Or.inr rfl)

-----------------------------------------------------------------------------------------
-- Every run is well formed
-----------------------------------------------------------------------------------------

theorem identified_of_sameIdentity {b c : Box} (same : b.SameIdentity c)
    (identified : b.Identified nameHash)
    : c.Identified nameHash := by
  have placeholder : c.placeholderId = b.placeholderId := by
    have tuple := same.worldTuple
    simp only [Box.worldTuple, Prod.mk.injEq] at tuple
    simp only [Box.placeholderId, tuple]
  refine ⟨fun unnamed => ?_, fun name => ?_⟩
  · obtain ⟨id, pending⟩ := identified.unnamed (same.displayName ▸ unnamed)
    exact ⟨by rw [same.boxId, placeholder, id], same.state.trans pending⟩
  · rw [same.boxId, same.displayName]
    exact identified.identified (same.displayName ▸ name)

/-- Writes that leave a box its identity. -/
theorem WellFormed.touch (wellFormed : WellFormed nameHash r) (h : Handle) {f : Box → Box}
    (same : ∀ b : Box, b.SameIdentity (f b))
    : WellFormed nameHash (r.update h f) :=
  wellFormed.update (fun b _ _ => (same b).toSameSession)
    (fun b member _ => identified_of_sameIdentity (same b) (wellFormed.identified b member))

theorem sameIdentity_observed (serverIp : UInt32) (nowMs : Int) (b : Box)
    : b.SameIdentity (b.observed serverIp nowMs) :=
  ⟨⟨rfl, rfl, rfl⟩, rfl, rfl, rfl⟩

theorem sameIdentity_announced (port : UInt16) (nowMs : Int) (b : Box)
    : b.SameIdentity (ZoneServerObserver.announced port nowMs b) :=
  ⟨⟨rfl, rfl, rfl⟩, rfl, rfl, rfl⟩

theorem sameIdentity_bound (clientPort serverPort : UInt16) (b : Box)
    : b.SameIdentity (b.bound clientPort serverPort) :=
  ⟨⟨rfl, rfl, rfl⟩, rfl, rfl, rfl⟩

theorem sameIdentity_stamped (nowMs : Int) (b : Box) : b.SameIdentity (b.stamped nowMs) :=
  ⟨⟨rfl, rfl, rfl⟩, rfl, rfl, rfl⟩

theorem WellFormed.observe (wellFormed : WellFormed nameHash r) (clientIp serverIp : UInt32)
    (clientWorldPort serverWorldPort : UInt16) (nowMs : Int)
    : WellFormed nameHash (r.observe clientIp serverIp clientWorldPort serverWorldPort nowMs) := by
  unfold BoxRegistry.observe
  split
  · exact wellFormed.touch _ (sameIdentity_observed serverIp nowMs)
  · rename_i missing
    exact wellFormed.append rfl (lookupByWorld_eq_none missing) rfl
      (created_identified clientIp serverIp clientWorldPort serverWorldPort nowMs)

/-- Promoting a box of the registry. -/
theorem WellFormed.promote (wellFormed : WellFormed nameHash r) {b : Box} (member : b ∈ r.boxes)
    {name : String} (nonempty : name ≠ "")
    : WellFormed nameHash (promote nameHash r b name) := by
  have renamed : WellFormed nameHash (r.update b.handle (Box.named nameHash name)) :=
    wellFormed.update (fun _ _ _ => ⟨rfl, rfl, rfl⟩)
      (fun c _ _ => named_identified c nonempty)
  refine renamed.onPromoted (mem_update.mpr ⟨b, member, ?_⟩) nonempty b.boxId
  rw [if_pos rfl]

theorem WellFormed.reclassify (wellFormed : WellFormed nameHash r) (digest : UInt64)
    : WellFormed nameHash (r.reclassify (.hashed digest)) :=
  wellFormed.mapBoxes (fun b _ => sameSession_classified _ _ b)
    (fun b member => classified_identified (wellFormed.identified b member) digest _)

theorem WellFormed.promoteByName (wellFormed : WellFormed nameHash r) (h : Handle)
    (name : String)
    : WellFormed nameHash (r.promoteByName nameHash h name) := by
  rcases promoteByName_cases nameHash r h name with ⟨same, _⟩ | ⟨b, found, nonempty, _, result⟩
  · rw [same]
    exact wellFormed
  · rw [result]
    exact ((wellFormed.promote (of_box? found).1 nonempty).withActive _).reclassify _

theorem WellFormed.onDecodedPacket (wellFormed : WellFormed nameHash r) (h : Handle)
    (packet : DecodedPacket)
    : WellFormed nameHash (NamePromoter.onDecodedPacket nameHash r h packet) := by
  rcases onDecodedPacket_cases r h packet with same | ⟨b, found, nonempty, _, result⟩
  · rw [same]
    exact wellFormed
  · rw [result]
    exact wellFormed.promote (of_box? found).1 nonempty

theorem WellFormed.evictStale (wellFormed : WellFormed nameHash r) (nowMs ttlMs : Int)
    : WellFormed nameHash (r.evictStale nowMs ttlMs) := by
  unfold BoxRegistry.evictStale
  split
  · exact wellFormed
  · refine wellFormed.filter (fun b _ primary => ?_) (fun c row kept => ?_)
    · simp [not_isVictim_of_isPrimary primary]
    · obtain ⟨b, member, session⟩ := wellFormed.live c row
      have alive := (wellFormed.row_kept_iff member session).mp (by simpa using kept)
      exact ⟨b, member, session, by simp [alive]⟩

/-- What writes of zone fields keep, an announcement keeps. -/
theorem announce_invariant {I : BoxRegistry → Prop}
    (touch
      : ∀ (s : BoxRegistry) (h : Handle) (f : Box → Box),
          (∀ b : Box, b.SameIdentity (f b)) → I s → I (s.update h f))
    (holds : I r) (h : Handle) (packet : DecodedPacket) (nowMs : Int)
    : I (ZoneServerObserver.onDecodedPacket r h packet nowMs) := by
  unfold ZoneServerObserver.onDecodedPacket
  split_ifs
  · exact holds
  · exact holds
  · exact holds
  · exact touch r h _ (sameIdentity_announced _ nowMs) holds

/-- What writes of zone fields keep, routing keeps: it binds a box and stamps it, or only
stamps it, or does nothing.
-/
theorem dispatchZone_invariant {I : BoxRegistry → Prop}
    (touch
      : ∀ (s : BoxRegistry) (h : Handle) (f : Box → Box),
          (∀ b : Box, b.SameIdentity (f b)) → I s → I (s.update h f))
    (holds : I r) (clientAddr : UInt32) (packet : ZonePacket) (nowMs : Int)
    : I (r.dispatchZone clientAddr packet nowMs).2 := by
  have stamp {s : BoxRegistry} (holds : I s) (h : Handle) :=
    touch s h _ (sameIdentity_stamped nowMs) holds
  have bind (h : Handle) (clientPort serverPort : UInt16) :=
    touch r h _ (sameIdentity_bound clientPort serverPort) holds
  unfold BoxRegistry.dispatchZone
  rcases r.pickBox_cases packet nowMs with
    ⟨b, _, _, picked⟩ | ⟨b, _, _, picked⟩
      | ⟨_, _, ⟨b, _, _, _, picked⟩ | ⟨b, _, _, _, picked⟩ | picked⟩
  · rw [picked]
    exact stamp holds b.handle
  · rw [picked]
    exact stamp holds b.handle
  · rw [picked]
    exact stamp (bind b.handle _ _) b.handle
  · rw [picked]
    exact stamp (bind b.handle _ _) b.handle
  · rw [picked]
    simp only
    split <;> exact holds

theorem WellFormed.step (wellFormed : WellFormed nameHash r) (op : RegistryOp)
    : WellFormed nameHash (step nameHash op r) := by
  cases op with
  | observe clientIp serverIp clientWorldPort serverWorldPort nowMs =>
      exact wellFormed.observe clientIp serverIp clientWorldPort serverWorldPort nowMs
  | enterWorld h packet => exact wellFormed.onDecodedPacket h packet
  | promoteByName h name => exact wellFormed.promoteByName h name
  | setActiveCharacterId id =>
      simp only [BoxRegistry.step, BoxRegistry.setActiveCharacterId]
      split
      · exact wellFormed
      · exact wellFormed.withActive id
  | evictStale nowMs ttlMs => exact wellFormed.evictStale nowMs ttlMs
  | zoneServerInfo h packet nowMs =>
      exact announce_invariant (fun _ h _ same wellFormed => wellFormed.touch h same) wellFormed
        h packet nowMs
  | zonePacket clientAddr packet nowMs =>
      exact dispatchZone_invariant (fun _ h _ same wellFormed => wellFormed.touch h same)
        wellFormed clientAddr packet nowMs

/-- The registries of all runs whose operations are each allowed in the state they find. -/
abbrev Reachable (nameHash : String → UInt64) (allowed : BoxRegistry → RegistryOp → Prop)
    : BoxRegistry → Prop :=
  Machine.Reaches (step nameHash) allowed empty

theorem wellFormed_of_reachable {allowed : BoxRegistry → RegistryOp → Prop}
    (reachable : Reachable nameHash allowed r)
    : WellFormed nameHash r :=
  reachable.invariant wellFormed_empty (fun _ op _ wellFormed => wellFormed.step op)

end BoxRegistry
end Scry
