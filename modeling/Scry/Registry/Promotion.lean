import Scry.Registry.Characters

/-! The two ways a box gets its character's name.
`OP_EnterWorld` names a box and files it, and the profile that follows finds the name there
and stops before it has adopted the active id and reclassified the character's sessions.
-/

namespace Scry
namespace BoxRegistry

variable {nameHash : String → UInt64} {r : BoxRegistry}

/-- The character has a row whose session plays it, and of its boxes the session alone is
attached and every other one superseded.
-/
def Classified (r : BoxRegistry) (id : BoxId) : Prop :=
  ∃ c ∈ r.characters,
    c.id = id
      ∧ (∃ s ∈ r.boxes, s.handle = c.session ∧ s.boxId = id)
      ∧ ∀ b ∈ r.boxes,
          b.boxId = id → b.state = if b.handle = c.session then .Attached else .Superseded

/-- `OP_EnterWorld` before the profile leaves what the profile alone leaves, and the
character's sessions classified.
-/
def PathsAgree (nameHash : String → UInt64) (r : BoxRegistry) (h : Handle) (name : String)
    : Prop :=
  (NamePromoter.enterWorld nameHash r h name).promoteByName nameHash h name
      = r.promoteByName nameHash h name
    ∧ (name ≠ "" → (r.promoteByName nameHash h name).Classified (.hashed (nameHash name)))

/-- A row of the id has a session the box would take over from, or one that plays it. -/
def TakesOver (r : BoxRegistry) (id : BoxId) (b : Box) : Prop :=
  ∀ c ∈ r.characters, c.id = id →
    ∀ s ∈ r.boxes, s.handle = c.session → s.firstSeenMs ≤ b.firstSeenMs ∨ s.boxId = id

/-- There is nothing to promote; or the box has the name and its character is classified; or
it has another name and its promotion leaves a session that plays the new character.
-/
def EnterWorldIdle (nameHash : String → UInt64) (r : BoxRegistry) (b : Box) (name : String)
    : Prop :=
  name = ""
    ∨ (b.displayName = name ∧ r.Classified (.hashed (nameHash name)))
    ∨ (b.displayName ≠ ""
      ∧ b.displayName ≠ name
      ∧ r.TakesOver (.hashed (nameHash name)) b)

/-- The box of a promoted registry under a handle. -/
theorem WellFormed.box?_promote (wellFormed : WellFormed nameHash r) {b : Box}
    (member : b ∈ r.boxes) {name : String} (nonempty : name ≠ "")
    : (BoxRegistry.promote nameHash r b name).box? b.handle = some (b.named nameHash name) := by
  have formed := wellFormed.promote member nonempty
  have there : b.named nameHash name ∈ (BoxRegistry.promote nameHash r b name).boxes :=
    mem_update.mpr ⟨b, member, by rw [if_pos rfl]⟩
  exact formed.box?_handle there

/-- A box of a reclassified registry. -/
theorem mem_reclassify {id : BoxId} {x : Box}
    : x ∈ (r.reclassify id).boxes
      ↔ ∃ y ∈ r.boxes, x = y.classified id (r.currentBoxFor id) := by
  simp [reclassify, eq_comm]

/-- Reclassifying a character with a row sets its boxes by the row's session. -/
theorem reclassify_state {id : BoxId} {c : Character} (row : c ∈ r.characters) (key : c.id = id)
    (unique : (r.characters.map Character.id).Nodup)
    : ∀ x ∈ (r.reclassify id).boxes,
        x.boxId = id → x.state = if x.handle = c.session then .Attached else .Superseded := by
  have live : r.currentBoxFor id = some c.session := by
    unfold currentBoxFor
    rw [← key, Keyed.find?_key unique row]
  intro x member same
  obtain ⟨y, _, rfl⟩ := mem_reclassify.mp member
  simp only [Box.classified] at same ⊢
  split at same
  · rename_i own
    simp [own, live]
  · rename_i other
    exact absurd same other

theorem classified_reclassify_iff {id : BoxId} {c : Character} (row : c ∈ r.characters)
    (key : c.id = id) (unique : (r.characters.map Character.id).Nodup)
    : (r.reclassify id).Classified id ↔ ∃ s ∈ r.boxes, s.handle = c.session ∧ s.boxId = id := by
  have kept (y : Box)
      : (y.classified id (r.currentBoxFor id)).handle = y.handle
        ∧ (y.classified id (r.currentBoxFor id)).boxId = y.boxId := by
    unfold Box.classified
    split <;> exact ⟨rfl, rfl⟩
  constructor
  · rintro ⟨other, there, same, ⟨s, member, session, plays⟩, _⟩
    have one : other = c := List.inj_on_of_nodup_map unique there row (same.trans key.symm)
    obtain ⟨y, present, rfl⟩ := mem_reclassify.mp member
    rw [(kept y).1, one] at session
    rw [(kept y).2] at plays
    exact ⟨y, present, session, plays⟩
  · rintro ⟨s, member, session, plays⟩
    refine ⟨c, row, key, ⟨s.classified id (r.currentBoxFor id), ?_, ?_, ?_⟩,
      reclassify_state row key unique⟩
    · exact mem_reclassify.mpr ⟨s, member, rfl⟩
    · rw [(kept s).1]
      exact session
    · rw [(kept s).2]
      exact plays

/-- The row an upsert leaves for an id that had one. -/
theorem upsertCharacter_old {boxes : List Box} {id : BoxId} {name : String} {session : Box}
    {rows : List Character} (unique : (rows.map Character.id).Nodup) {c : Character}
    (row : c ∈ rows) (key : c.id = id)
    : { c with
        name
        session := if adopts boxes c session then session.handle else c.session }
      ∈ upsertCharacter boxes id name session rows := by
  induction rows with
  | nil => cases row
  | cons first rest ih =>
      rw [List.map_cons, List.nodup_cons] at unique
      rcases List.mem_cons.mp row with rfl | later
      · simp only [upsertCharacter, key, if_true]
        exact List.mem_cons_self
      · have other : first.id ≠ id := by
          intro clash
          refine unique.1 ?_
          rw [clash, ← key]
          exact List.mem_map_of_mem later
        simp only [upsertCharacter, other, if_false]
        exact List.mem_cons_of_mem _ (ih unique.2 later)

/-- The row an upsert leaves for a new id. -/
theorem upsertCharacter_new {boxes : List Box} {id : BoxId} {name : String} {session : Box}
    {rows : List Character} (fresh : ∀ c ∈ rows, c.id ≠ id)
    : ⟨name, id, session.handle⟩ ∈ upsertCharacter boxes id name session rows := by
  induction rows with
  | nil => exact List.mem_cons_self
  | cons first rest ih =>
      rw [List.forall_mem_cons] at fresh
      simp only [upsertCharacter, fresh.1, if_false]
      exact List.mem_cons_of_mem _ (ih fresh.2)

/-- The take-over guard compares when the two boxes were first seen. -/
theorem WellFormed.adopts_promote (wellFormed : WellFormed nameHash r) {b s : Box}
    (member : b ∈ r.boxes) (there : s ∈ r.boxes) {name : String} (nonempty : name ≠ "")
    {c : Character} (session : s.handle = c.session)
    : adopts (BoxRegistry.promote nameHash r b name).boxes c (b.named nameHash name)
      = decide (s.firstSeenMs ≤ b.firstSeenMs) := by
  have formed := wellFormed.promote member nonempty
  have present : (if s.handle = b.handle then s.named nameHash name else s)
      ∈ (BoxRegistry.promote nameHash r b name).boxes :=
    mem_update.mpr ⟨s, there, rfl⟩
  have found := Keyed.find?_key formed.handles present
  have handle : (if s.handle = b.handle then s.named nameHash name else s).handle = c.session := by
    split <;> exact session
  have firstSeen
      : (if s.handle = b.handle then s.named nameHash name else s).firstSeenMs
        = s.firstSeenMs := by
    split <;> rfl
  rw [handle] at found
  simp only [adopts, found, firstSeen]
  rfl

/-- After a promotion of a box under another name the character is classified exactly when
the box takes the row over or leaves it with a session that plays the character.
-/
theorem WellFormed.classified_promoteByName_iff (wellFormed : WellFormed nameHash r) {b : Box}
    (member : b ∈ r.boxes) {name : String} (nonempty : name ≠ "") (other : b.displayName ≠ name)
    : (r.promoteByName nameHash b.handle name).Classified (.hashed (nameHash name))
      ↔ r.TakesOver (.hashed (nameHash name)) b := by
  have found := wellFormed.box?_handle member
  have formed := wellFormed.promote member nonempty
  have renamed : b.named nameHash name ∈ (BoxRegistry.promote nameHash r b name).boxes :=
    mem_update.mpr ⟨b, member, by rw [if_pos rfl]⟩
  rcases promoteByName_cases nameHash r b.handle name with
    ⟨_, idle⟩ | ⟨b', found', _, _, result⟩
  · exact absurd (idle b found) (not_or.mpr ⟨nonempty, other⟩)
  rw [found] at found'
  cases found'
  rw [result]
  by_cases fresh : ∀ c ∈ r.characters, c.id ≠ .hashed (nameHash name)
  · refine iff_of_true ?_ (fun c row key => absurd key (fresh c row))
    refine (classified_reclassify_iff (upsertCharacter_new fresh) rfl formed.rows).mpr ?_
    exact ⟨_, renamed, rfl, rfl⟩
  · push Not at fresh
    obtain ⟨c, row, key⟩ := fresh
    obtain ⟨s, there, session⟩ := wellFormed.live c row
    have kept
        : { c with
            name
            session := if s.firstSeenMs ≤ b.firstSeenMs then b.handle else c.session }
          ∈ (BoxRegistry.promote nameHash r b name).characters := by
      have filed
          : { c with
              name
              session :=
                if adopts (BoxRegistry.promote nameHash r b name).boxes c (b.named nameHash name)
                then b.handle
                else c.session }
            ∈ (BoxRegistry.promote nameHash r b name).characters :=
        upsertCharacter_old wellFormed.rows row key
      rw [wellFormed.adopts_promote member there nonempty session] at filed
      simpa only [decide_eq_true_eq] using filed
    have only : r.TakesOver (.hashed (nameHash name)) b
        ↔ s.firstSeenMs ≤ b.firstSeenMs ∨ s.boxId = .hashed (nameHash name) := by
      refine ⟨fun takes => takes c row key s there session, ?_⟩
      intro either d row' key' t there' session'
      have same : d = c := List.inj_on_of_nodup_map wellFormed.rows row' row (key'.trans key.symm)
      subst same
      rw [wellFormed.eq_of_handle there' there (session'.trans session.symm)]
      exact either
    rw [only]
    refine (classified_reclassify_iff kept key formed.rows).trans ?_
    by_cases newer : s.firstSeenMs ≤ b.firstSeenMs
    · simp only [newer, if_true, true_or, iff_true]
      exact ⟨_, renamed, rfl, rfl⟩
    · simp only [newer, false_or, if_false]
      have apart : s.handle ≠ b.handle := by
        intro same
        rw [wellFormed.eq_of_handle there member same] at newer
        exact newer (Int.le_refl _)
      have survivor : s ∈ (BoxRegistry.promote nameHash r b name).boxes :=
        mem_update.mpr ⟨s, there, by rw [if_neg apart]⟩
      constructor
      · rintro ⟨y, present, handle, plays⟩
        rwa [formed.eq_of_handle present survivor (handle.trans session.symm)] at plays
      · exact fun plays => ⟨s, survivor, session, plays⟩

/-- The box of a reclassified character is not pending. -/
theorem promoteByName_state {b : Box} (wellFormed : WellFormed nameHash r) (member : b ∈ r.boxes)
    {name : String} (nonempty : name ≠ "") (other : b.displayName ≠ name)
    : ∀ x, (r.promoteByName nameHash b.handle name).box? b.handle = some x → x.state ≠ .Pending := by
  have found := wellFormed.box?_handle member
  have formed := wellFormed.promote member nonempty
  rcases promoteByName_cases nameHash r b.handle name with ⟨_, idle⟩ | ⟨b', found', _, _, result⟩
  · exact absurd (idle b found) (not_or.mpr ⟨nonempty, other⟩)
  rw [found] at found'
  cases found'
  intro x there
  rw [result] at there
  obtain ⟨present, handle⟩ := of_box? there
  obtain ⟨y, old, rfl⟩ := mem_reclassify.mp present
  have own : y.boxId = .hashed (nameHash name) := by
    have renamed : b.named nameHash name ∈ (BoxRegistry.promote nameHash r b name).boxes :=
      mem_update.mpr ⟨b, member, by rw [if_pos rfl]⟩
    have same : y.handle = b.handle := by
      rw [← handle]
      unfold Box.classified
      split <;> rfl
    rw [formed.eq_of_handle old renamed same]
    rfl
  simp only [Box.classified, own, if_true]
  split <;> simp

/-- For every box of a reachable registry and every name, promotion by `OP_EnterWorld`
followed by the profile agrees with the profile alone and classifies the character, if and
only if `OP_EnterWorld` finds nothing to do and the profile leaves a session that plays it.
-/
theorem promotion_paths_agree_iff (nameHash : String → UInt64)
    {allowed : BoxRegistry → RegistryOp → Prop} {r : BoxRegistry}
    (reachable : Reachable nameHash allowed r) {b : Box} (member : b ∈ r.boxes) (name : String)
    : PathsAgree nameHash r b.handle name ↔ EnterWorldIdle nameHash r b name := by
  have wellFormed := wellFormed_of_reachable reachable
  have found := wellFormed.box?_handle member
  unfold PathsAgree EnterWorldIdle
  by_cases nonempty : name = ""
  · refine iff_of_true ⟨?_, fun named => absurd nonempty named⟩ (Or.inl nonempty)
    simp [NamePromoter.enterWorld, promoteByName, found, nonempty]
  by_cases same : b.displayName = name
  · -- Both paths stop at the name that is already there.
    have named : b.displayName ≠ "" := by rwa [same]
    have entered : NamePromoter.enterWorld nameHash r b.handle name = r := by
      simp [NamePromoter.enterWorld, found, named]
    have promoted : r.promoteByName nameHash b.handle name = r := by
      simp [promoteByName, found, nonempty, same]
    simp [entered, promoted, nonempty, same]
  by_cases unnamed : b.displayName = ""
  · -- `OP_EnterWorld` leaves the box pending, the profile alone does not.
    refine iff_of_false (fun agree => ?_) (by simp [nonempty, unnamed, eq_comm])
    have entered : NamePromoter.enterWorld nameHash r b.handle name
        = promote nameHash r b name := by
      simp [NamePromoter.enterWorld, found, nonempty, unnamed]
    have stays := wellFormed.box?_promote member nonempty
    have stopped : (promote nameHash r b name).promoteByName nameHash b.handle name
        = promote nameHash r b name := by
      simp [promoteByName, stays, nonempty, Box.named]
    have alone := agree.1
    rw [entered, stopped] at alone
    have pending := ((wellFormed.identified b member).unnamed unnamed).2
    rw [alone] at stays
    exact promoteByName_state wellFormed member nonempty same _ stays pending
  · have entered : NamePromoter.enterWorld nameHash r b.handle name = r := by
      simp [NamePromoter.enterWorld, found, unnamed]
    rw [entered, wellFormed.classified_promoteByName_iff member nonempty same]
    simp [nonempty, same, unnamed]

instance (r : BoxRegistry) (id : BoxId) (b : Box) : Decidable (r.TakesOver id b) :=
  inferInstanceAs (Decidable (∀ c ∈ r.characters, _))

/-- The second session of a character, promoted under a new name. -/
theorem promotion_paths_agree_renamed
    : PathsAgree sampleHash rehandshake 1 "Beta" := by
  have reachable : Reachable sampleHash (fun _ op => Known sampleNames op) rehandshake :=
    reachable_exec (by decide)
  have there : (rehandshake.box? 1).get (by decide) ∈ rehandshake.boxes := by decide
  exact (promotion_paths_agree_iff sampleHash reachable there "Beta").mpr
    (Or.inr (Or.inr ⟨by decide, by decide, by decide⟩))

/-- A box that enters the world under a name stays pending, and keeps the placeholder of a
dead session active.
-/
theorem promotion_paths_agree_enterWorld
    : Reachable sampleHash (fun _ op => Known sampleNames op)
        (Machine.exec (step sampleHash) empty twoBoxes)
      ∧ ¬ PathsAgree sampleHash (Machine.exec (step sampleHash) empty twoBoxes) 1 "Alpha" :=
  ⟨reachable_exec (by decide), fun agree => absurd agree.1 (by decide)⟩

end BoxRegistry
end Scry
