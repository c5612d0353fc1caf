import Scry.Registry.Characters

/-! Whether a character that keeps a box keeps its live session.
A sweep goes by how long a box has been silent, the store by which box is the newest, so a
row can be dropped with its session while another box of the character is spared.
-/

namespace Scry
namespace BoxRegistry

variable {nameHash : String → UInt64} {r : BoxRegistry}

/-- If a box plays the character, its current session is the newest box that does, and is
attached.
-/
def SessionResolves (r : BoxRegistry) (name : String) : Prop :=
  (∃ b ∈ r.boxes, b.displayName = name) →
    ∃ s ∈ r.boxes,
      r.currentSessionFor name = some s.handle
        ∧ s.displayName = name
        ∧ (∀ b ∈ r.boxes, b.displayName = name → b.firstSeenMs ≤ s.firstSeenMs)
        ∧ s.state = .Attached

/-- The sweep leaves the box: it is off, or the box is primary, actively viewed or not idle. -/
def Spares (r : BoxRegistry) (nowMs ttlMs : Int) (b : Box) : Prop :=
  ttlMs ≤ 0 ∨ r.isVictim nowMs ttlMs b = false

/-- Before the sweep, the row of the name has an attached session of that name, which is
spared and the newest of the spared boxes of that name.
-/
def SparesSession (r : BoxRegistry) (nowMs ttlMs : Int) (name : String) : Prop :=
  ∃ c ∈ r.characters, ∃ s ∈ r.boxes,
    c.name = name
      ∧ s.handle = c.session
      ∧ s.displayName = name
      ∧ s.state = .Attached
      ∧ r.Spares nowMs ttlMs s
      ∧ ∀ b ∈ r.boxes, r.Spares nowMs ttlMs b → b.displayName = name →
          b.firstSeenMs ≤ s.firstSeenMs

theorem mem_evictStale {nowMs ttlMs : Int} {b : Box}
    : b ∈ (r.evictStale nowMs ttlMs).boxes ↔ b ∈ r.boxes ∧ r.Spares nowMs ttlMs b := by
  unfold evictStale Spares
  split_ifs with off
  · simp [off]
  · simp [off, List.mem_filter]

/-- A row survives exactly when its session is spared. -/
theorem WellFormed.mem_evictStale_characters (wellFormed : WellFormed nameHash r)
    {nowMs ttlMs : Int} {c : Character} {s : Box} (member : s ∈ r.boxes)
    (session : s.handle = c.session)
    : c ∈ (r.evictStale nowMs ttlMs).characters
      ↔ c ∈ r.characters ∧ r.Spares nowMs ttlMs s := by
  unfold BoxRegistry.evictStale Spares
  split_ifs with off
  · simp [off]
  · rw [List.mem_filter, decide_eq_true_iff, wellFormed.row_kept_iff member session]
    simp [off]

/-- Rows have different names, since the id is the name's. -/
theorem WellFormed.rowNames (wellFormed : WellFormed nameHash r)
    : (r.characters.map Character.name).Nodup := by
  refine List.Nodup.of_map (fun name => BoxId.hashed (nameHash name)) ?_
  rw [List.map_map]
  have ids : r.characters.map ((fun name => BoxId.hashed (nameHash name)) ∘ Character.name)
      = r.characters.map Character.id :=
    List.map_congr_left fun c row => (wellFormed.rowIds c row).2.symm
  rw [ids]
  exact wellFormed.rows

/-- The current session of a name is the session of its row. -/
theorem WellFormed.currentSessionFor_eq_some (wellFormed : WellFormed nameHash r) {name : String}
    (nonempty : name ≠ "") {h : Handle}
    : r.currentSessionFor name = some h ↔ ∃ c ∈ r.characters, c.name = name ∧ c.session = h := by
  simp only [currentSessionFor, nonempty, if_false, Option.map_eq_some_iff]
  constructor
  · rintro ⟨c, found, session⟩
    obtain ⟨row, label⟩ := Keyed.of_find?_key found
    exact ⟨c, row, label, session⟩
  · rintro ⟨c, row, label, session⟩
    refine ⟨c, ?_, session⟩
    rw [← label]
    exact Keyed.find?_key wellFormed.rowNames row

/-- After any sweep of a reachable registry every character that has a box has its newest box
as attached current session, if and only if each character with a spared box has an attached
session that is spared and the newest of them.
-/
theorem evictStale_resolves_iff (nameHash : String → UInt64)
    {allowed : BoxRegistry → RegistryOp → Prop} {r : BoxRegistry}
    (reachable : Reachable nameHash allowed r) (nowMs ttlMs : Int)
    : (∀ name, name ≠ "" → (r.evictStale nowMs ttlMs).SessionResolves name)
      ↔ ∀ b ∈ r.boxes, b.displayName ≠ "" → r.Spares nowMs ttlMs b →
          r.SparesSession nowMs ttlMs b.displayName := by
  have wellFormed := wellFormed_of_reachable reachable
  have swept := wellFormed.evictStale nowMs ttlMs
  constructor
  · intro resolves b member named spared
    obtain ⟨s, there, current, label, newest, attached⟩ :=
      resolves b.displayName named ⟨b, mem_evictStale.mpr ⟨member, spared⟩, rfl⟩
    obtain ⟨present, alive⟩ := mem_evictStale.mp there
    obtain ⟨c, row, name, session⟩ := (swept.currentSessionFor_eq_some named).mp current
    have old := (wellFormed.mem_evictStale_characters present session.symm).mp row
    refine ⟨c, old.1, s, present, name, session.symm, label, attached, alive, ?_⟩
    intro other there spared same
    exact newest other (mem_evictStale.mpr ⟨there, spared⟩) same
  · intro spares name named
    rintro ⟨b, there, rfl⟩
    obtain ⟨member, spared⟩ := mem_evictStale.mp there
    obtain ⟨c, row, s, present, label, session, display, attached, alive, newest⟩ :=
      spares b member named spared
    refine ⟨s, mem_evictStale.mpr ⟨present, alive⟩, ?_, display, ?_, attached⟩
    · refine (swept.currentSessionFor_eq_some named).mpr ⟨c, ?_, label, session.symm⟩
      exact (wellFormed.mem_evictStale_characters present session).mpr ⟨row, alive⟩
    · intro other there same
      obtain ⟨old, spared⟩ := mem_evictStale.mp there
      exact newest other old spared same

instance (r : BoxRegistry) (nowMs ttlMs : Int) (b : Box) : Decidable (r.Spares nowMs ttlMs b) :=
  inferInstanceAs (Decidable (_ ∨ _))

instance (r : BoxRegistry) (nowMs ttlMs : Int) (name : String)
    : Decidable (r.SparesSession nowMs ttlMs name) :=
  inferInstanceAs (Decidable (∃ c ∈ r.characters, ∃ s ∈ r.boxes, _))

/-- The active character's newest session outlives a sweep that finds everything idle. -/
theorem evictStale_resolves_rehandshake
    : Reachable sampleHash (fun _ op => Known sampleNames op) rehandshake
      ∧ ∀ name, name ≠ "" → (rehandshake.evictStale 1000 100).SessionResolves name := by
  have reachable : Reachable sampleHash (fun _ op => Known sampleNames op) rehandshake :=
    reachable_exec (by decide)
  exact ⟨reachable, (evictStale_resolves_iff sampleHash reachable 1000 100).mpr (by decide)⟩

/-- The same two sessions of one character, with another character being viewed. -/
def viewedElsewhere : BoxRegistry :=
  Machine.exec (step sampleHash) rehandshake
    [.observe 0x0a0d0008 0x0a0d00cd 1002 9016 30, .promoteByName 2 "Beta",
      .setActiveCharacterId (.hashed (sampleHash "Beta"))]

/-- The newer session is reaped and takes the row with it; the primary box still plays the
character.
-/
theorem evictStale_resolves_orphaned
    : Reachable sampleHash (fun _ op => Known sampleNames op) viewedElsewhere
      ∧ ¬ ∀ name, name ≠ "" → (viewedElsewhere.evictStale 1000 100).SessionResolves name := by
  refine ⟨?_, fun resolves => ?_⟩
  · have reachable : Reachable sampleHash (fun _ op => Known sampleNames op) rehandshake :=
      reachable_exec (by decide)
    exact reachable.trans (Machine.reaches_exec (by decide))
  · obtain ⟨s, _, current, _⟩ := resolves "Alpha" (by decide) (by decide)
    have gone : (viewedElsewhere.evictStale 1000 100).currentSessionFor "Alpha" = none := by
      decide
    rw [gone] at current
    cases current

end BoxRegistry
end Scry
