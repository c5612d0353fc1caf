import Mathlib.Data.List.Induction
import Scry.Registry.Promotion

/-! Boxes promoted in any order.
A row follows the box of its name that was first seen last, whichever box is promoted when, and
the loop behind each promotion leaves that box attached and the others superseded.
-/

namespace Scry
namespace BoxRegistry

variable {nameHash : String → UInt64} {names : Set String} {r t : BoxRegistry}

/-- No box is promoted yet, and no two boxes were first seen at the same time. -/
structure Unpromoted (r : BoxRegistry) : Prop where
  unnamed : ∀ b ∈ r.boxes, b.displayName = ""
  rows : r.characters = []
  apart : (r.boxes.map Box.firstSeenMs).Nodup

/-- Promotions of boxes of the registry, no box twice. -/
structure Promotions (names : Set String) (r : BoxRegistry) (ps : List (Handle × String)) : Prop where
  once : (ps.map Prod.fst).Nodup
  boxes : ∀ p ∈ ps, ∃ b ∈ r.boxes, b.handle = p.1
  known : ∀ p ∈ ps, p.2 ≠ "" ∧ p.2 ∈ names

/-- Promote boxes one after another. -/
def promoteAll (nameHash : String → UInt64) (r : BoxRegistry) (ps : List (Handle × String))
    : BoxRegistry :=
  ps.foldl (fun r p => r.promoteByName nameHash p.1 p.2) r

/-- Of the boxes promoted to the name, the one under the handle was first seen last. -/
def Newest (r : BoxRegistry) (ps : List (Handle × String)) (name : String) (h : Handle) : Prop :=
  (h, name) ∈ ps
    ∧ ∀ s ∈ r.boxes, s.handle = h →
      ∀ b ∈ r.boxes, (b.handle, name) ∈ ps → b.firstSeenMs ≤ s.firstSeenMs

/-- What promotions leave: each name has a row and the row's session is the name's newest box;
that box is attached, and the other boxes of the name are superseded.
-/
structure Settles (nameHash : String → UInt64) (r : BoxRegistry) (ps : List (Handle × String))
    (t : BoxRegistry)
    : Prop where
  rows
    : ∀ c, c ∈ t.characters
        ↔ c.id = .hashed (nameHash c.name) ∧ r.Newest ps c.name c.session
  filed : ∀ p ∈ ps, ∃ c ∈ t.characters, c.name = p.2
  states
    : ∀ c ∈ t.characters, ∀ b ∈ t.boxes,
        (b.handle, c.name) ∈ ps → b.state = if b.handle = c.session then .Attached else .Superseded

-----------------------------------------------------------------------------------------
-- One promotion
-----------------------------------------------------------------------------------------

/-- A row of another id is kept by an upsert. -/
theorem upsertCharacter_kept {boxes : List Box} {id : BoxId} {name : String} {session : Box}
    {rows : List Character} {c : Character} (row : c ∈ rows) (other : c.id ≠ id)
    : c ∈ upsertCharacter boxes id name session rows := by
  induction rows with
  | nil => cases row
  | cons first rest ih =>
      unfold upsertCharacter
      rcases List.mem_cons.mp row with rfl | later
      · rw [if_neg other]
        exact List.mem_cons_self
      · split
        · exact List.mem_cons_of_mem _ later
        · exact List.mem_cons_of_mem _ (ih later)

/-- The row a promotion leaves for the name: its session is the promoted box, or an old
session that was first seen later.
-/
theorem WellFormed.promoted_row (wellFormed : WellFormed nameHash t) {b : Box}
    (member : b ∈ t.boxes) {name : String} (nonempty : name ≠ "")
    : ∃ row ∈ (BoxRegistry.promote nameHash t b name).characters,
        row.id = .hashed (nameHash name)
        ∧ row.name = name
        ∧ ((row.session = b.handle
            ∧ ∀ c ∈ t.characters, c.id = .hashed (nameHash name) →
              ∀ s ∈ t.boxes, s.handle = c.session → s.firstSeenMs ≤ b.firstSeenMs)
          ∨ ∃ c ∈ t.characters,
              c.id = .hashed (nameHash name)
              ∧ row.session = c.session
              ∧ ∀ s ∈ t.boxes, s.handle = c.session → b.firstSeenMs ≤ s.firstSeenMs) := by
  by_cases fresh : ∀ c ∈ t.characters, c.id ≠ .hashed (nameHash name)
  · refine ⟨_, upsertCharacter_new fresh, rfl, rfl, Or.inl ⟨rfl, ?_⟩⟩
    exact fun c row key => absurd key (fresh c row)
  · push Not at fresh
    obtain ⟨c, row, key⟩ := fresh
    obtain ⟨s, there, session⟩ := wellFormed.live c row
    have one {x : Box} (present : x ∈ t.boxes) (handle : x.handle = c.session) : x = s :=
      wellFormed.eq_of_handle present there (handle.trans session.symm)
    have filed
        : { c with
            name
            session :=
              if adopts (t.update b.handle (Box.named nameHash name)).boxes c
                  (b.named nameHash name)
              then b.handle
              else c.session }
          ∈ (BoxRegistry.promote nameHash t b name).characters :=
      upsertCharacter_old wellFormed.rows row key
    have guard : adopts (t.update b.handle (Box.named nameHash name)).boxes c
        (b.named nameHash name) = decide (s.firstSeenMs ≤ b.firstSeenMs) :=
      wellFormed.adopts_promote member there nonempty session
    refine ⟨_, filed, key, rfl, ?_⟩
    simp only [guard, decide_eq_true_eq]
    split
    · rename_i newer
      refine Or.inl ⟨rfl, fun d row' key' x present handle => ?_⟩
      have same : d = c := List.inj_on_of_nodup_map wellFormed.rows row' row (key'.trans key.symm)
      rw [one present (by rw [handle, same])]
      exact newer
    · rename_i older
      refine Or.inr ⟨c, row, key, rfl, fun x present handle => ?_⟩
      rw [one present handle]
      exact Int.le_of_lt (Int.not_le.mp older)

/-- `x` is what the promotion of a box to a name leaves of the box `y`. -/
structure LeftOf (b : Box) (name : String) (y x : Box) : Prop where
  handle : x.handle = y.handle
  firstSeenMs : x.firstSeenMs = y.firstSeenMs
  displayName : x.displayName = if y.handle = b.handle then name else y.displayName
  state : x.displayName ≠ name → x.state = y.state

/-- An unnamed box is promoted, and its character reclassified. -/
theorem promoteByName_unnamed (wellFormed : WellFormed nameHash t) {b : Box}
    (member : b ∈ t.boxes) (unnamed : b.displayName = "") {name : String} (nonempty : name ≠ "")
    : t.promoteByName nameHash b.handle name
      = ({ promote nameHash t b name with
            activeCharacterId := promotedActive nameHash t b name }).reclassify
          (.hashed (nameHash name)) := by
  have found := wellFormed.box?_handle member
  rcases promoteByName_cases nameHash t b.handle name with ⟨_, idle⟩ | ⟨b', found', _, _, result⟩
  · rcases idle b found with empty | same
    · exact absurd empty nonempty
    · exact absurd (same.symm.trans unnamed) nonempty
  · rw [found] at found'
    cases found'
    exact result

/-- A box whose id is a name's digest has the name. -/
theorem WellFormed.displayName_of_boxId (wellFormed : WellFormed nameHash t)
    (injective : Set.InjOn nameHash names)
    (known : ∀ y ∈ t.boxes, y.displayName ≠ "" → y.displayName ∈ names) {name : String}
    (here : name ∈ names) {y : Box} (member : y ∈ t.boxes)
    (digest : y.boxId = .hashed (nameHash name))
    : y.displayName = name := by
  have identified := wellFormed.identified y member
  by_cases unnamed : y.displayName = ""
  · have placeholder := (identified.unnamed unnamed).1
    rw [digest] at placeholder
    cases placeholder
  · have own := identified.identified unnamed
    rw [digest] at own
    exact (injective here (known y member unnamed) (BoxId.hashed.inj own)).symm

theorem promoteByName_leaves (wellFormed : WellFormed nameHash t)
    (injective : Set.InjOn nameHash names)
    (known : ∀ y ∈ t.boxes, y.displayName ≠ "" → y.displayName ∈ names) {b : Box}
    (member : b ∈ t.boxes) (unnamed : b.displayName = "") {name : String} (nonempty : name ≠ "")
    (here : name ∈ names)
    : ∃ left : Box → Box,
        (t.promoteByName nameHash b.handle name).boxes = t.boxes.map left
        ∧ ∀ y ∈ t.boxes, LeftOf b name y (left y) := by
  rw [promoteByName_unnamed wellFormed member unnamed nonempty]
  generalize promotedActive nameHash t b name = active
  simp only [reclassify]
  generalize
    currentBoxFor { promote nameHash t b name with activeCharacterId := active }
      (.hashed (nameHash name)) = live
  refine ⟨_, List.map_map, fun y present => ?_⟩
  have kept (x : Box)
      : (x.classified (.hashed (nameHash name)) live).handle = x.handle
        ∧ (x.classified (.hashed (nameHash name)) live).firstSeenMs = x.firstSeenMs
        ∧ (x.classified (.hashed (nameHash name)) live).displayName = x.displayName := by
    unfold Box.classified
    split <;> exact ⟨rfl, rfl, rfl⟩
  obtain ⟨handle, seen, display⟩ := kept (if y.handle = b.handle then y.named nameHash name else y)
  refine ⟨?_, ?_, ?_, fun other => ?_⟩
  · exact handle.trans (by split <;> rfl)
  · exact seen.trans (by split <;> rfl)
  · exact display.trans (by split <;> rfl)
  · have apart : y.handle ≠ b.handle := by
      intro same
      rw [Function.comp_apply, display, if_pos same] at other
      exact other rfl
    rw [Function.comp_apply, display, if_neg apart] at other
    have elsewhere : y.boxId ≠ .hashed (nameHash name) := fun digest =>
      other (wellFormed.displayName_of_boxId injective known here present digest)
    simp only [Function.comp_apply, if_neg apart, Box.classified, if_neg elsewhere]

-----------------------------------------------------------------------------------------
-- What every promotion keeps
-----------------------------------------------------------------------------------------

/-- Every named box has a row of its name, the row's session was first seen last of the boxes
of the name, and the states follow it.
-/
structure Settled (t : BoxRegistry) : Prop where
  newest
    : ∀ c ∈ t.characters, ∀ s ∈ t.boxes, s.handle = c.session →
        ∀ b ∈ t.boxes, b.displayName = c.name → b.firstSeenMs ≤ s.firstSeenMs
  rowed : ∀ b ∈ t.boxes, b.displayName ≠ "" → ∃ c ∈ t.characters, c.name = b.displayName
  states
    : ∀ c ∈ t.characters, ∀ b ∈ t.boxes, b.displayName = c.name →
        b.state = if b.handle = c.session then .Attached else .Superseded

/-- The names of a settled registry's boxes are known. -/
theorem Settled.known (settled : t.Settled) (filed : Filed nameHash names t)
    : ∀ y ∈ t.boxes, y.displayName ≠ "" → y.displayName ∈ names := by
  intro y member named
  obtain ⟨c, row, same⟩ := settled.rowed y member named
  rw [← same]
  exact filed.known c row

/-- Promoting an unnamed box keeps a registry settled: the name's row gets the newest session,
and the reclassifying loop the states to it.
-/
theorem Settled.promoteByName (settled : t.Settled) (filed : Filed nameHash names t)
    (injective : Set.InjOn nameHash names) {b : Box} (member : b ∈ t.boxes)
    (unnamed : b.displayName = "") {name : String} (nonempty : name ≠ "") (here : name ∈ names)
    : (t.promoteByName nameHash b.handle name).Settled := by
  have wellFormed := filed.toWellFormed
  have formed := wellFormed.promoteByName b.handle name
  have result := promoteByName_unnamed wellFormed member unnamed nonempty
  have rows : (t.promoteByName nameHash b.handle name).characters
      = (promote nameHash t b name).characters := by
    rw [result]
    rfl
  obtain ⟨left, boxes, leaves⟩ :=
    promoteByName_leaves wellFormed injective (settled.known filed) member unnamed nonempty here
  have origin {x : Box} (present : x ∈ (t.promoteByName nameHash b.handle name).boxes)
      : ∃ y ∈ t.boxes, LeftOf b name y x := by
    rw [boxes] at present
    obtain ⟨y, old, rfl⟩ := List.mem_map.mp present
    exact ⟨y, old, leaves y old⟩
  obtain ⟨row, there, key, label, session⟩ := wellFormed.promoted_row member nonempty
  rw [← rows] at there
  -- Every row is the name's or an old one of another name.
  have split {c : Character} (present : c ∈ (t.promoteByName nameHash b.handle name).characters)
      : c = row ∨ (c ∈ t.characters ∧ c.name ≠ name) := by
    by_cases own : c.id = .hashed (nameHash name)
    · exact Or.inl (List.inj_on_of_nodup_map formed.rows present there (own.trans key.symm))
    · rw [rows] at present
      rcases mem_upsertCharacter wellFormed.rows present with ⟨old, _⟩ | ⟨same, _⟩
      · refine Or.inr ⟨old, fun same => own ?_⟩
        rw [(wellFormed.rowIds c old).2, same]
      · exact absurd same own
  have digest {c : Character} (old : c ∈ t.characters)
      : c.id = .hashed (nameHash name) ↔ c.name = name := by
    have id := (wellFormed.rowIds c old).2
    constructor
    · intro same
      rw [id] at same
      exact injective (filed.known c old) here (BoxId.hashed.inj same)
    · rintro rfl
      exact id
  have other {x y : Box} (from_y : LeftOf b name y x) (apart : x.displayName ≠ name)
      : y.displayName = x.displayName := by
    have display := from_y.displayName
    split at display
    · exact absurd display apart
    · exact display.symm
  refine ⟨?_, ?_, ?_⟩
  · intro c present s newS session' x newX display
    obtain ⟨y, oldY, from_y⟩ := origin newX
    obtain ⟨z, oldZ, from_z⟩ := origin newS
    rw [from_y.firstSeenMs, from_z.firstSeenMs]
    rw [from_z.handle] at session'
    rcases split present with rfl | ⟨old, apart⟩
    · rw [label] at display
      rcases session with ⟨takes, olds⟩ | ⟨c, old, key', keeps, later⟩
      · have promoted : z = b := wellFormed.eq_of_handle oldZ member (session'.trans takes)
        subst promoted
        by_cases same : y.handle = z.handle
        · rw [wellFormed.eq_of_handle oldY member same]
        · have named : y.displayName = name := by
            rw [← display, from_y.displayName, if_neg same]
          obtain ⟨c, old, name'⟩ := settled.rowed y oldY (by rwa [named])
          obtain ⟨s, live, handle⟩ := wellFormed.live c old
          calc y.firstSeenMs ≤ s.firstSeenMs := settled.newest c old s live handle y oldY name'.symm
            _ ≤ z.firstSeenMs := olds c old ((digest old).mpr (name'.trans named)) s live handle
      · have before := later z oldZ (session'.trans keeps)
        by_cases same : y.handle = b.handle
        · rw [wellFormed.eq_of_handle oldY member same]
          exact before
        · have named : y.displayName = name := by
            rw [← display, from_y.displayName, if_neg same]
          exact settled.newest c old z oldZ (session'.trans keeps) y oldY
            (named.trans ((digest old).mp key').symm)
    · have named := other from_y (by rwa [display])
      exact settled.newest c old z oldZ session' y oldY (named.trans display)
  · intro x newX named
    obtain ⟨y, oldY, from_y⟩ := origin newX
    by_cases own : x.displayName = name
    · exact ⟨row, there, label.trans own.symm⟩
    · have display := other from_y own
      obtain ⟨c, old, name'⟩ := settled.rowed y oldY (by rwa [display])
      refine ⟨c, ?_, name'.trans display⟩
      rw [rows]
      refine upsertCharacter_kept old (fun same => own ?_)
      rw [← display, ← name']
      exact (digest old).mp same
  · intro c present x newX display
    rcases split present with rfl | ⟨old, apart⟩
    · rw [rows] at there
      have digest : x.boxId = .hashed (nameHash name) := by
        rw [label] at display
        rw [(formed.identified x newX).identified (by rwa [display]), display]
      rw [result] at newX
      exact reclassify_state there key (wellFormed.promote member nonempty).rows x newX digest
    · obtain ⟨y, oldY, from_y⟩ := origin newX
      have moved : x.displayName ≠ name := by rwa [display]
      have named := other from_y moved
      rw [from_y.state moved, from_y.handle]
      exact settled.states c old y oldY (named.trans display)

-----------------------------------------------------------------------------------------
-- All promotions
-----------------------------------------------------------------------------------------

/-- The registry a row of promotions has led to, seen from the one it started in. -/
structure Tracks (r : BoxRegistry) (ps : List (Handle × String)) (t : BoxRegistry) : Prop where
  back : ∀ b ∈ t.boxes, ∃ a ∈ r.boxes, a.handle = b.handle ∧ a.firstSeenMs = b.firstSeenMs
  forth : ∀ a ∈ r.boxes, ∃ b ∈ t.boxes, b.handle = a.handle ∧ b.firstSeenMs = a.firstSeenMs
  names : ∀ b ∈ t.boxes, ∀ name ≠ "", b.displayName = name ↔ (b.handle, name) ∈ ps

theorem Tracks.promoteByName {ps : List (Handle × String)} (tracks : r.Tracks ps t)
    (wellFormed : WellFormed nameHash t) (injective : Set.InjOn nameHash names)
    (known : ∀ y ∈ t.boxes, y.displayName ≠ "" → y.displayName ∈ names) {b : Box}
    (member : b ∈ t.boxes) (unnamed : b.displayName = "") {name : String} (nonempty : name ≠ "")
    (here : name ∈ names)
    : r.Tracks (ps ++ [(b.handle, name)]) (t.promoteByName nameHash b.handle name) := by
  obtain ⟨left, boxes, leaves⟩ :=
    promoteByName_leaves wellFormed injective known member unnamed nonempty here
  refine ⟨?_, ?_, ?_⟩
  · rw [boxes, List.forall_mem_map]
    intro y old
    obtain ⟨a, start, handle, seen⟩ := tracks.back y old
    exact ⟨a, start, handle.trans (leaves y old).handle.symm,
      seen.trans (leaves y old).firstSeenMs.symm⟩
  · intro a start
    obtain ⟨y, old, handle, seen⟩ := tracks.forth a start
    refine ⟨left y, ?_, (leaves y old).handle.trans handle, (leaves y old).firstSeenMs.trans seen⟩
    rw [boxes]
    exact List.mem_map_of_mem old
  · rw [boxes, List.forall_mem_map]
    intro y old label named
    rw [(leaves y old).displayName, (leaves y old).handle, List.mem_append, List.mem_singleton,
      Prod.mk.injEq, ← tracks.names y old label named]
    split
    · rename_i same
      rw [wellFormed.eq_of_handle old member same, unnamed]
      constructor
      · rintro rfl
        exact Or.inr ⟨rfl, rfl⟩
      · rintro (empty | ⟨_, same⟩)
        · exact absurd empty.symm named
        · exact same.symm
    · rename_i apart
      exact ⟨Or.inl, fun either => either.resolve_right fun own => apart own.1⟩

/-- What every row of promotions leads to, by induction on the promotions. -/
theorem promoteAll_settled (injective : Set.InjOn nameHash names)
    (wellFormed : WellFormed nameHash r) (unpromoted : r.Unpromoted)
    {ps : List (Handle × String)} (promotions : Promotions names r ps)
    : Filed nameHash names (promoteAll nameHash r ps)
      ∧ (promoteAll nameHash r ps).Settled
      ∧ r.Tracks ps (promoteAll nameHash r ps) := by
  induction ps using List.reverseRecOn with
  | nil =>
      have rows := unpromoted.rows
      refine ⟨⟨wellFormed, ?_, ?_⟩, ⟨?_, ?_, ?_⟩, ⟨?_, ?_, ?_⟩⟩
      · simp [promoteAll, rows]
      · simp [promoteAll, rows]
      · simp [promoteAll, rows]
      · exact fun b member named => absurd (unpromoted.unnamed b member) named
      · simp [promoteAll, rows]
      · exact fun b member => ⟨b, member, rfl, rfl⟩
      · exact fun a member => ⟨a, member, rfl, rfl⟩
      · intro b member name named
        rw [unpromoted.unnamed b member]
        exact iff_of_false (fun empty => named empty.symm) List.not_mem_nil
  | append_singleton ps p ih =>
      obtain ⟨h, name⟩ := p
      have once := promotions.once
      rw [List.map_append, List.nodup_append] at once
      have before : Promotions names r ps :=
        ⟨once.1, fun p member => promotions.boxes p (List.mem_append_left _ member),
          fun p member => promotions.known p (List.mem_append_left _ member)⟩
      obtain ⟨filed, settled, tracks⟩ := ih before
      have last : (h, name) ∈ ps ++ [(h, name)] := by simp
      obtain ⟨nonempty, here⟩ := promotions.known _ last
      obtain ⟨a, start, handle⟩ := promotions.boxes _ last
      obtain ⟨b, member, same, _⟩ := tracks.forth a start
      rw [handle] at same
      subst same
      have unnamed : b.displayName = "" := by
        by_contra named
        have earlier := (tracks.names b member _ named).mp rfl
        exact once.2.2 b.handle (List.mem_map.mpr ⟨_, earlier, rfl⟩) b.handle (by simp) rfl
      have next : promoteAll nameHash r (ps ++ [(b.handle, name)])
          = (promoteAll nameHash r ps).promoteByName nameHash b.handle name := by
        simp [promoteAll]
      rw [next]
      have known := settled.known filed
      refine ⟨?_, settled.promoteByName filed injective member unnamed nonempty here,
        tracks.promoteByName filed.toWellFormed injective known member unnamed nonempty here⟩
      rw [promoteByName_unnamed filed.toWellFormed member unnamed nonempty]
      exact ((filed.promote injective member nonempty here
        (filed.free_of_unnamed member unnamed)).withActive _).reclassify _

/-- The row of a name in a settled registry has the name's newest box as its session. -/
theorem Tracks.newest {ps : List (Handle × String)} (tracks : r.Tracks ps t)
    (filed : Filed nameHash names t) (settled : t.Settled) {c : Character}
    (row : c ∈ t.characters)
    : r.Newest ps c.name c.session := by
  have named := (filed.rowIds c row).1
  obtain ⟨s, live, session, _, display⟩ := filed.describes c row
  have promoted := (tracks.names s live c.name named).mp display
  rw [session] at promoted
  refine ⟨promoted, fun a start handle b start' here => ?_⟩
  obtain ⟨a', present, handle', seen⟩ := tracks.forth a start
  obtain ⟨b', present', same, seen'⟩ := tracks.forth b start'
  rw [← same] at here
  rw [← seen, ← seen']
  exact settled.newest c row a' present (handle'.trans handle) b' present'
    ((tracks.names b' present' c.name named).mpr here)

/-- No two boxes are the newest of a name. -/
theorem Newest.unique {ps : List (Handle × String)} (unpromoted : r.Unpromoted)
    (promotions : Promotions names r ps) {name : String} {h k : Handle}
    (first : r.Newest ps name h) (second : r.Newest ps name k)
    : h = k := by
  obtain ⟨a, start, rfl⟩ := promotions.boxes _ first.1
  obtain ⟨b, start', rfl⟩ := promotions.boxes _ second.1
  have le := second.2 b start' rfl a start first.1
  have ge := first.2 a start rfl b start' second.1
  rw [List.inj_on_of_nodup_map unpromoted.apart start start' (Int.le_antisymm le ge)]

theorem promoteAll_settles (injective : Set.InjOn nameHash names)
    (wellFormed : WellFormed nameHash r) (unpromoted : r.Unpromoted)
    {ps : List (Handle × String)} (promotions : Promotions names r ps)
    : Settles nameHash r ps (promoteAll nameHash r ps) := by
  obtain ⟨filed, settled, tracks⟩ :=
    promoteAll_settled injective wellFormed unpromoted promotions
  have row_of {h : Handle} {name : String} (promoted : (h, name) ∈ ps)
      : ∃ c ∈ (promoteAll nameHash r ps).characters, c.name = name := by
    have named := (promotions.known _ promoted).1
    obtain ⟨a, start, rfl⟩ := promotions.boxes _ promoted
    obtain ⟨b, member, same, _⟩ := tracks.forth a start
    rw [← same] at promoted
    have display := (tracks.names b member name named).mpr promoted
    obtain ⟨c, row, label⟩ := settled.rowed b member (by rwa [display])
    exact ⟨c, row, label.trans display⟩
  refine ⟨fun c => ⟨fun row => ?_, ?_⟩, fun p promoted => row_of promoted, ?_⟩
  · exact ⟨(filed.rowIds c row).2, tracks.newest filed settled row⟩
  · rintro ⟨id, newest⟩
    obtain ⟨d, row, label⟩ := row_of newest.1
    have other := tracks.newest filed settled row
    rw [label] at other
    have session := other.unique unpromoted promotions newest
    have key := (filed.rowIds d row).2
    rw [label, ← id] at key
    obtain ⟨name, digest, handle⟩ := c
    obtain ⟨name', digest', handle'⟩ := d
    simp only at label key session
    subst label key session
    exact row
  · intro c row b member promoted
    have named := (filed.rowIds c row).1
    exact settled.states c row b member ((tracks.names b member c.name named).mpr promoted)

/-- The order of the promotions is nothing to what they leave. -/
theorem Newest.congr {ps qs : List (Handle × String)} (same : ∀ p, p ∈ qs ↔ p ∈ ps)
    (name : String) (h : Handle)
    : r.Newest qs name h ↔ r.Newest ps name h := by
  simp only [Newest, same]

/-- For boxes that were first seen at different times and are promoted once each, every order
of the promotions settles the same sessions and states and leaves the same rows.
-/
theorem promotion_order (nameHash : String → UInt64) {names : Set String}
    (injective : Set.InjOn nameHash names) {allowed : BoxRegistry → RegistryOp → Prop}
    {r : BoxRegistry} (reachable : Reachable nameHash allowed r) (unpromoted : r.Unpromoted)
    {ps : List (Handle × String)} (promotions : Promotions names r ps)
    : ∀ qs, qs.Perm ps →
        Settles nameHash r ps (promoteAll nameHash r qs)
        ∧ (promoteAll nameHash r qs).characters.Perm (promoteAll nameHash r ps).characters := by
  intro qs perm
  have wellFormed := wellFormed_of_reachable reachable
  have shuffled : Promotions names r qs :=
    ⟨(perm.map Prod.fst).nodup_iff.mpr promotions.once,
      fun p member => promotions.boxes p (perm.mem_iff.mp member),
      fun p member => promotions.known p (perm.mem_iff.mp member)⟩
  have there := promoteAll_settles injective wellFormed unpromoted promotions
  have here := promoteAll_settles injective wellFormed unpromoted shuffled
  have settles : Settles nameHash r ps (promoteAll nameHash r qs) := by
    refine ⟨fun c => ?_, fun p member => here.filed p (perm.mem_iff.mpr member), ?_⟩
    · rw [here.rows c, Newest.congr fun _ => perm.mem_iff]
    · exact fun c row b member promoted =>
        here.states c row b member (perm.mem_iff.mpr promoted)
  have distinct {ps : List (Handle × String)} (promotions : Promotions names r ps)
      : (promoteAll nameHash r ps).characters.Nodup :=
    (promoteAll_settled injective wellFormed unpromoted promotions).1.rows.of_map _
  refine ⟨settles, (List.perm_ext_iff_of_nodup (distinct shuffled) (distinct promotions)).mpr ?_⟩
  intro c
  rw [settles.rows c, there.rows c]

/-- Two boxes of one host, before either is promoted. -/
def twoSeen : BoxRegistry := Machine.exec (step sampleHash) empty twoBoxes

/-- The older box is promoted behind the newer one. -/
theorem promotion_order_late
    : Settles sampleHash twoSeen [(0, "Alpha"), (1, "Alpha")]
          (promoteAll sampleHash twoSeen [(1, "Alpha"), (0, "Alpha")])
        ∧ (promoteAll sampleHash twoSeen [(1, "Alpha"), (0, "Alpha")]).characters.Perm
          (promoteAll sampleHash twoSeen [(0, "Alpha"), (1, "Alpha")]).characters := by
  have reachable : Reachable sampleHash (fun _ op => Known sampleNames op) twoSeen :=
    reachable_exec (by decide)
  exact promotion_order sampleHash sampleHash_injOn reachable
    ⟨by decide, by decide, by decide⟩ ⟨by decide, by decide, by decide⟩ _ (List.Perm.swap _ _ _)

end BoxRegistry
end Scry
