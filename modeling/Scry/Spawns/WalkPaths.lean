import Scry.Library.Machine
import Scry.Library.Recent
import Scry.SpawnPoints.SpawnMonitor
import Scry.Spawns.Spawn

/-! The path a spawn is recorded to have walked, which is limited in length. -/

namespace Scry

/-- What `Spawn::setPos` reads and writes of a spawn. -/
structure WalkedSpawn where
  npc : UInt8
  point : EQPoint
  spawnTrackList : List EQPoint
  deriving DecidableEq

/-- Where the zone's coordinates begin. -/
def EQPoint.origin : EQPoint := { x := 0, y := 0, z := 0 }

/-- A change of place that is not only one of height. -/
abbrev EQPoint.Moved (p q : EQPoint) : Prop := p.x ≠ q.x ∨ p.y ≠ q.y

namespace WalkedSpawn

/-- A spawn as it is constructed, of some kind and at some place. -/
def create (npc : UInt8) (p : EQPoint) : WalkedSpawn :=
  { npc := npc, point := p, spawnTrackList := [] }

/-- `Spawn::setPos`, with what it is told of the preferences. The list's length is exact here. -/
def setPos (walkpathrecord : Bool) (walkpathlength : Nat) (p : EQPoint) (s : WalkedSpawn)
    : WalkedSpawn :=
  let s := { s with point := p }
  if walkpathrecord then
    let count := s.spawnTrackList.length
    if s.npc = SPAWN_SELF ∧ count = 0 ∧ p.x = 0 ∧ p.y = 0 ∧ p.z = 0 then s
    else if ∀ last ∈ s.spawnTrackList.getLast?, last.x ≠ p.x ∨ last.y ≠ p.y then
      let trackList :=
        if walkpathlength > 0 ∧ count > 2 ∧ count > walkpathlength then s.spawnTrackList.drop 1
        else s.spawnTrackList
      { s with spawnTrackList := trackList ++ [p] }
    else s
  else s

/-- A spawn that was put to some positions with its walk path recorded. -/
abbrev walked (walkpathlength : Nat) (s : WalkedSpawn) (history : List EQPoint) : WalkedSpawn :=
  Machine.exec (setPos true walkpathlength) s history

/-- A history without the origin that the player's own spawn is at first. -/
def started (npc : UInt8) (history : List EQPoint) : List EQPoint :=
  if npc = SPAWN_SELF then history.dropWhile (· = .origin) else history

/-- A history as it should be recorded, with no position that differs from the one before in
height only.
-/
def collapsed (npc : UInt8) (history : List EQPoint) : List EQPoint :=
  (started npc history).destutter EQPoint.Moved

/-- What should be recorded of a history: all of it, or its last points if there is a limit. -/
def recent (walkpathlength : Nat) (path : List EQPoint) : List EQPoint :=
  if walkpathlength = 0 then path else path.rtake walkpathlength

/-- The walk path of a spawn is bounded and right after every call. -/
def Faithful (npc : UInt8) (start : EQPoint) (walkpathlength : Nat) (history : List EQPoint)
    : Prop :=
  ∀ before later, history = before ++ later →
    let track := ((create npc start).walked walkpathlength before).spawnTrackList
    (walkpathlength ≠ 0 → track.length ≤ walkpathlength)
      ∧ track = recent walkpathlength (collapsed npc before)

variable {npc : UInt8} {start p : EQPoint} {limit : Nat} {history : List EQPoint}
  {s : WalkedSpawn}

/-- What `setPos` does keep of a path, which is up to one point more than the limit and never
fewer than three.
-/
def kept (walkpathlength : Nat) (path : List EQPoint) : List EQPoint :=
  if walkpathlength = 0 then path else path.rtake (max walkpathlength 2 + 1)

-----------------------------------------------------------------------------------------
-- One more position
-----------------------------------------------------------------------------------------

theorem getLast?_kept (limit : Nat) (path : List EQPoint)
    : (kept limit path).getLast? = path.getLast? := by
  rw [kept]
  split
  · rfl
  · exact Recent.getLast?_rtake_succ path _

theorem kept_eq_nil_iff {path : List EQPoint} : kept limit path = [] ↔ path = [] := by
  rw [← List.getLast?_eq_none_iff, getLast?_kept, List.getLast?_eq_none_iff]

/-- A point is appended to what is kept of a path by first giving up the oldest one, where there
is one to give up.
-/
theorem kept_concat (limit : Nat) (path : List EQPoint) (p : EQPoint)
    : (if limit > 0 ∧ (kept limit path).length > 2 ∧ (kept limit path).length > limit
        then (kept limit path).drop 1 else kept limit path) ++ [p]
      = kept limit (path ++ [p]) := by
  by_cases unlimited : limit = 0
  · subst unlimited
    rw [if_neg (by omega), kept, kept, if_pos rfl, if_pos rfl]
  · have full (n : Nat) : (limit > 0 ∧ n > 2 ∧ n > limit) = (max limit 2 < n) :=
      propext (by omega)
    simp only [kept, if_neg unlimited, full]
    exact Recent.pushWithin_rtake (max limit 2) path p

/-- The origin is not recorded of the player's own spawn before anything else is. -/
theorem started_concat (npc : UInt8) (history : List EQPoint) (p : EQPoint)
    : started npc (history ++ [p])
      = if npc = SPAWN_SELF ∧ started npc history = [] ∧ p = .origin then []
        else started npc history ++ [p] := by
  by_cases self : npc = SPAWN_SELF
  · simp only [started, self, if_true, true_and, List.dropWhile_append]
    by_cases first : history.dropWhile (· = EQPoint.origin) = []
    · by_cases atOrigin : p = .origin <;> simp [first, atOrigin]
    · simp [first]
  · simp [started, self]

theorem collapsed_concat (npc : UInt8) (history : List EQPoint) (p : EQPoint)
    : collapsed npc (history ++ [p])
      = if npc = SPAWN_SELF ∧ started npc history = [] ∧ p = .origin then collapsed npc history
        else if ∀ last ∈ (collapsed npc history).getLast?, last.Moved p
          then collapsed npc history ++ [p]
        else collapsed npc history := by
  rw [collapsed, started_concat]
  split
  next skipped => rw [collapsed, skipped.2.1]
  next recorded =>
    split
    next moved => exact Recent.destutter_concat_of_rel moved
    next unmoved =>
      push Not at unmoved
      obtain ⟨a, isLast, x, y⟩ := unmoved
      exact Recent.destutter_concat_of_not_rel isLast fun moved => moved.elim (· x) (· y)

/-- What a spawn at a history has kept, it has kept after one more position, by the cases of
`setPos`.
-/
theorem setPos_kept (npc_eq : s.npc = npc)
    (track : s.spawnTrackList = kept limit (collapsed npc history))
    : (s.setPos true limit p).spawnTrackList = kept limit (collapsed npc (history ++ [p])) := by
  have empty : s.spawnTrackList.length = 0 ↔ started npc history = [] := by
    rw [List.length_eq_zero_iff, track, kept_eq_nil_iff, collapsed, List.destutter_eq_nil]
  have origin : (p.x = 0 ∧ p.y = 0 ∧ p.z = 0) ↔ p = .origin := by
    rw [EQPoint.origin, EQPoint.mk.injEq]
  have last : s.spawnTrackList.getLast? = (collapsed npc history).getLast? := by
    rw [track, getLast?_kept]
  simp only [setPos, if_true, npc_eq, empty, origin, last, collapsed_concat]
  split
  · exact track
  · split
    · dsimp only
      rw [track, kept_concat]
    · exact track

@[simp]
theorem setPos_npc (record : Bool) (limit : Nat) (p : EQPoint) (s : WalkedSpawn)
    : (s.setPos record limit p).npc = s.npc := by
  cases record
  · rfl
  · simp only [setPos, if_true]
    split
    · rfl
    · split <;> rfl

-----------------------------------------------------------------------------------------
-- A whole history
-----------------------------------------------------------------------------------------

/-- What is kept after a whole history, by induction on it from its end. -/
theorem spawnTrackList_walked (npc : UInt8) (start : EQPoint) (limit : Nat)
    (history : List EQPoint)
    : ((create npc start).walked limit history).npc = npc
      ∧ ((create npc start).walked limit history).spawnTrackList
        = kept limit (collapsed npc history) := by
  induction history using List.reverseRecOn with
  | nil =>
      refine ⟨rfl, ?_⟩
      rw [collapsed, started, List.dropWhile_nil, ite_self, List.destutter_nil]
      exact (kept_eq_nil_iff.mpr rfl).symm
  | append_singleton history p ih =>
      rw [walked, Machine.exec_append]
      exact ⟨(setPos_npc true limit p _).trans ih.1, setPos_kept ih.1 ih.2⟩

/-- A longer history has a longer path, by induction on what it has more. -/
theorem length_collapsed_append (npc : UInt8) (before later : List EQPoint)
    : (collapsed npc before).length ≤ (collapsed npc (before ++ later)).length := by
  induction later using List.reverseRecOn with
  | nil => rw [List.append_nil]
  | append_singleton later p ih =>
      refine ih.trans ?_
      rw [← List.append_assoc, collapsed_concat npc (before ++ later) p]
      split
      · exact Nat.le_refl _
      · split
        · rw [List.length_append]
          exact Nat.le_add_right _ _
        · exact Nat.le_refl _

/-- What is kept is within the limit exactly where the whole path is. -/
theorem length_kept_le_iff {path : List EQPoint} (limited : limit ≠ 0)
    : (kept limit path).length ≤ limit ↔ path.length ≤ limit := by
  rw [kept, if_neg limited, Recent.length_rtake]
  omega

/-- A path within the limit is kept and recorded whole. -/
theorem kept_eq_recent {path : List EQPoint} (short : limit = 0 ∨ path.length ≤ limit)
    : kept limit path = recent limit path := by
  rw [kept, recent]
  split
  · rfl
  · have short := short.resolve_left ‹_›
    rw [Recent.rtake_of_length_le (by omega), Recent.rtake_of_length_le short]

/-- A walk path is bounded and right after every call exactly where it stays within the limit.
One that passes it is left a point too long, since the count is looked at before the point is
appended.
-/
theorem faithful_iff (npc : UInt8) (start : EQPoint) (limit : Nat) (history : List EQPoint)
    : Faithful npc start limit history
      ↔ limit = 0 ∨ (collapsed npc history).length ≤ limit := by
  constructor
  · intro faithful
    by_cases limited : limit = 0
    · exact .inl limited
    · obtain ⟨bounded, -⟩ := faithful history [] (List.append_nil history).symm
      have bounded := bounded limited
      rw [(spawnTrackList_walked npc start limit history).2, length_kept_le_iff limited] at bounded
      exact .inr bounded
  · intro short before later split
    have short : limit = 0 ∨ (collapsed npc before).length ≤ limit :=
      short.imp_right fun within =>
        (length_collapsed_append npc before later).trans (split ▸ within)
    have track := (spawnTrackList_walked npc start limit before).2
    dsimp only
    rw [track]
    exact ⟨fun limited => (length_kept_le_iff limited).mpr (short.resolve_left limited),
      kept_eq_recent short⟩

/-- Two places, with a limit of one point. -/
theorem not_faithful
    : ¬ Faithful SPAWN_NPC .origin 1 [{ x := 1, y := 0, z := 0 }, { x := 2, y := 0, z := 0 }] := by
  intro faithful
  obtain ⟨bounded, -⟩ := faithful _ [] (List.append_nil _).symm
  exact absurd (bounded (by decide)) (by decide)

end WalkedSpawn

end Scry
