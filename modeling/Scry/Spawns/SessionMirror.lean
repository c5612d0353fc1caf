import Scry.Spawns.Following

/-! A subscribed client along a whole run: the operations of the shell, the zone signals and the
changes of the player's id.
-/

namespace Scry

open SpawnShell

variable {α : Type} {g : ShownSpawn → α}

-----------------------------------------------------------------------------------------
-- Signals that bring no snapshot
-----------------------------------------------------------------------------------------

theorem receiveAll_zoneShort {signals : List SpawnSignal}
    (plain : ∀ signal ∈ signals, signal.Plain) (zoneShort : String) (c : SpawnClient)
    : (c.receiveAll (signals.flatMap (·.envelopes zoneShort))).zoneShort = c.zoneShort := by
  induction signals generalizing c with
  | nil => rfl
  | cons signal rest ih =>
      obtain ⟨first, later⟩ := List.forall_mem_cons.mp plain
      have one : (c.receiveAll (signal.envelopes zoneShort)).zoneShort = c.zoneShort := by
        cases signal with
        | changedID shell => exact absurd first id
        | changeItem item changeType =>
            simp only [SpawnSignal.envelopes, SpawnClient.receiveAll, List.foldl_cons,
              List.foldl_nil, onChangeItem]
            split
            · rfl
            · simp only [SpawnClient.receive]
              split <;> rfl
        | _ => rfl
      have rest := ih later (c.receiveAll (signal.envelopes zoneShort))
      simp only [SpawnClient.receiveAll, List.flatMap_cons, List.foldl_append] at one rest ⊢
      exact rest.trans one

theorem plain_clear (sh : SpawnShell) : ∀ signal ∈ sh.clear.2, signal.Plain := by
  intro signal member
  rw [List.mem_singleton.mp member]
  trivial

theorem plain_refilter {ι : Type} [DecidableEq ι] (item : ι → SpawnItem) (changeType : UInt32)
    (update : ι → ι) (m : OrderedMap Nat ι)
    : ∀ signal ∈ SpawnShell.refilter item changeType update m, signal.Plain := by
  intro signal member
  obtain ⟨i, _, rfl⟩ := List.mem_map.mp member
  trivial

theorem plain_filtersChanged (sh : SpawnShell) (filterMask : FilterString → UInt8 → UInt32)
    : ∀ signal ∈ (sh.filtersChanged filterMask).2, signal.Plain := by
  intro signal member
  rcases List.mem_append.mp member with early | door
  · rcases List.mem_append.mp early with spawn | drop
    · exact plain_refilter _ _ _ _ signal spawn
    · exact plain_refilter _ _ _ _ signal drop
  · exact plain_refilter _ _ _ _ signal door

namespace ZoneSession

variable {w : ZoneSession}

-----------------------------------------------------------------------------------------
-- One step
-----------------------------------------------------------------------------------------

/-- The shell's ids are in order, and a subscribed client mirrors its items. -/
structure Synced (g : ShownSpawn → α) (w : ZoneSession) : Prop where
  keyed : w.shell.Keyed
  mirrored : w.subscribed = true → w.shell.Mirrored g w.client

/-- An operation of the shell, as a session goes through it. -/
theorem synced_perform {cond : Prop} {before : SpawnShell}
    {result : SpawnShell × List SpawnSignal} (tracks : Tracks g cond before result)
    (mirrored : w.subscribed = true → before.Mirrored g w.client)
    (held : w.subscribed = true → cond)
    (separable : w.subscribed = true → result.1.Separable g)
    : (w.perform result).Synced g where
  keyed := (perform_shell result).symm ▸ tracks.keyed
  mirrored live := by
    rw [perform_subscribed] at live
    rw [perform_shell, perform_client result live]
    exact tracks.mirrored (held live) _ _ (separable live) (mirrored live)

@[simp] theorem enter_subscribed (shortName : String) (isZoning : Bool)
    : (w.enter shortName isZoning).subscribed = w.subscribed :=
  rfl

/-- What the zone manager and a zone signal find before any slot runs. -/
theorem Synced.enter (synced : w.Synced g) (shortName : String) (isZoning : Bool)
    : (w.enter shortName isZoning).Synced g where
  keyed := synced.keyed.congr rfl rfl
  mirrored := synced.mirrored

/-- A subscribed session's snapshot. -/
theorem synced_sendSnapshot (keyed : w.shell.Keyed) (separable : w.shell.Separable g)
    : (w.sendSnapshot w.shell).Synced g where
  keyed := by simpa [sendSnapshot] using keyed
  mirrored live := by
    have live : w.subscribed = true := by simpa [sendSnapshot] using live
    simp only [sendSnapshot, send_shell, send_client live]
    exact mirrored_snapshot keyed.listed separable.coherent _ _

/-- A zone's name that the client has already changes nothing. -/
theorem Synced.zoneNamed (synced : w.Synced g) {shortName : String}
    (same : w.subscribed = true → shortName = w.client.zoneShort)
    : (w.send (.zoneChanged shortName)).Synced g where
  keyed := by simpa using synced.keyed
  mirrored live := by
    rw [send_subscribed] at live
    rw [send_shell, send_client live, SpawnClient.receive, if_pos (same live)]
    exact synced.mirrored live

/-- The session's slot for a zone it enters. -/
theorem synced_onZoneChanged {shortName : String} (keyed : w.shell.Keyed)
    (separable : w.subscribed = true → w.shell.Separable g)
    (known
      : w.subscribed = true →
          w.shortZoneName ≠ w.lastSnapshotZone
          ∨ (shortName = w.client.zoneShort ∧ w.shell.Mirrored g w.client))
    : (w.onZoneChanged shortName).Synced g := by
  simp only [onZoneChanged, send_subscribed, send_shortZoneName, send_lastSnapshotZone]
  split
  · rename_i anew
    refine synced_sendSnapshot ?_ ?_
    · rw [send_shell]
      exact keyed
    · rw [send_shell]
      exact separable anew.1
  · rename_i same
    have stays (live : w.subscribed = true) := (known live).resolve_left fun anew =>
      same ⟨live, anew⟩
    exact Synced.zoneNamed ⟨keyed, fun live => (stays live).2⟩ fun live => (stays live).1

/-- Only the player is left of a cleared shell. -/
theorem separable_clear (sh : SpawnShell) : sh.clear.1.Separable g :=
  Or.inr (List.nodup_singleton _)

theorem keyed_filtersChanged {sh : SpawnShell} (keyed : sh.Keyed)
    (filterMask : FilterString → UInt8 → UInt32)
    : (sh.filtersChanged filterMask).1.Keyed := by
  have tracks : Tracks (fun _ => ()) True sh (sh.filtersChanged filterMask) :=
    tracks_filtersChanged keyed filterMask
  exact tracks.keyed

/-- The shell cleared and the filters changed, as both zone signals have it. -/
theorem synced_cleared (before sh : SpawnShell) (filterMask : FilterString → UInt8 → UInt32)
    (mirrored : w.subscribed = true → before.Mirrored g w.client)
    (alone : w.subscribed = true → ∀ i ∈ before.items, i.id = sh.player.id)
    : ((w.perform sh.clear).perform
        ((w.perform sh.clear).shell.filtersChanged filterMask)).Synced g := by
  have cleared : (w.perform sh.clear).Synced g :=
    synced_perform (tracks_clear before sh id) mirrored alone fun _ => separable_clear sh
  have changed : Tracks g True _ ((w.perform sh.clear).shell.filtersChanged filterMask) :=
    tracks_filtersChanged cleared.keyed filterMask
  refine synced_perform changed cleared.mirrored (fun _ => trivial) fun _ => Or.inr ?_
  rw [perform_shell]
  exact List.nodup_singleton _

/-- What clearing and the filters leave alone. -/
theorem cleared_frame (sh : SpawnShell) (filterMask : FilterString → UInt8 → UInt32)
    : let later :=
        (w.perform sh.clear).perform ((w.perform sh.clear).shell.filtersChanged filterMask)
      later.subscribed = w.subscribed ∧ later.shortZoneName = w.shortZoneName
      ∧ later.lastSnapshotZone = w.lastSnapshotZone
      ∧ (w.subscribed = true → later.client.zoneShort = w.client.zoneShort) := by
  refine ⟨by simp, by simp, ?_, ?_⟩
  · rw [perform_lastSnapshotZone (plain_filtersChanged _ filterMask),
      perform_lastSnapshotZone (plain_clear sh)]
  · intro live
    have still : (w.perform sh.clear).subscribed = true := (perform_subscribed _).trans live
    rw [perform_client _ still, receiveAll_zoneShort (plain_filtersChanged _ filterMask),
      perform_client _ live, receiveAll_zoneShort (plain_clear sh)]

/-- What a step must find for a subscribed client to stay a mirror, given what an operation of
the shell must: a zone signal clears the client along with the shell, or a snapshot follows.
-/
def Finds (onShell : SpawnShell → ShellOp → Prop) (w : ZoneSession) : ZoneOp → Prop
  | .shell op => onShell w.shell op
  | .zoneBegin shortName _ =>
      shortName = w.client.zoneShort ∧ ∀ i ∈ w.shell.items, i.id = w.shell.player.id
  | .zoneChanged shortName _ =>
      shortName ≠ w.lastSnapshotZone
      ∨ (shortName = w.client.zoneShort ∧ ∀ i ∈ w.shell.items, i.id = 0)
  | .zoneResolved shortName _ =>
      shortName ≠ w.lastSnapshotZone ∨ shortName = w.client.zoneShort
  | .zoneManager _ _ => True
  | .subscribe => True

theorem Finds.mono {onShell onOther : SpawnShell → ShellOp → Prop} {op : ZoneOp}
    (finds : w.Finds onShell op) (weaker : ∀ op, onShell w.shell op → onOther w.shell op)
    : w.Finds onOther op := by
  cases op with
  | shell op => exact weaker op finds
  | _ => exact finds

theorem Synced.zoneBegin (synced : w.Synced g) (shortName : String)
    (filterMask : FilterString → UInt8 → UInt32)
    (follows : w.subscribed = true → w.Finds (SpawnShell.Follows g) (.zoneBegin shortName filterMask))
    : (w.zoneBegin shortName filterMask).Synced g := by
  have cleared := synced_cleared (w := w.enter shortName false) w.shell
    (w.enter shortName false).shell filterMask
    synced.mirrored fun live => (follows live).2
  obtain ⟨subscribed, _, _, zone⟩ :=
    cleared_frame (w := w.enter shortName false) (w.enter shortName false).shell filterMask
  refine cleared.zoneNamed fun live => ?_
  rw [subscribed] at live
  exact (follows live).1.trans (zone live).symm

theorem Synced.zoneChanged (synced : w.Synced g) (shortName : String)
    (filterMask : FilterString → UInt8 → UInt32)
    (follows : w.subscribed = true → w.Finds (SpawnShell.Follows g) (.zoneChanged shortName filterMask))
    : (w.zoneChanged shortName filterMask).Synced g := by
  let entered := w.enter shortName true
  let sh := { entered.shell with player := entered.shell.player.zoneChanged }
  obtain ⟨subscribed, named, last, zone⟩ :=
    cleared_frame (w := { entered with shell := sh }) sh filterMask
  refine synced_onZoneChanged ?_ (fun _ => Or.inr ?_) fun live => ?_
  · rw [perform_shell, perform_shell]
    exact keyed_filtersChanged (keyed_clear sh) filterMask
  · rw [perform_shell, perform_shell]
    exact List.nodup_singleton _
  · rw [subscribed] at live
    rcases follows live with anew | ⟨same, zero⟩
    · refine Or.inl ?_
      rw [named, last]
      exact anew
    · refine Or.inr ⟨same.trans (zone live).symm, ?_⟩
      have cleared := synced_cleared (w := { entered with shell := sh }) w.shell sh filterMask
        synced.mirrored fun _ => zero
      exact cleared.mirrored (subscribed.trans live)

theorem Synced.zoneResolved (synced : w.Synced g) (shortName : String)
    (filterMask : FilterString → UInt8 → UInt32)
    (separable
      : w.subscribed = true → (w.zoneResolved shortName filterMask).shell.Separable g)
    (follows : w.subscribed = true → w.Finds (SpawnShell.Follows g) (.zoneResolved shortName filterMask))
    : (w.zoneResolved shortName filterMask).Synced g := by
  have entered := synced.enter shortName false
  have tracks : Tracks g True (w.enter shortName false).shell
      ((w.enter shortName false).shell.filtersChanged filterMask) :=
    tracks_filtersChanged entered.keyed filterMask
  have apart (live : w.subscribed = true)
      : ((w.enter shortName false).shell.filtersChanged filterMask).1.Separable g := by
    simpa only [ZoneSession.zoneResolved, onZoneChanged_shell, perform_shell] using separable live
  have refiltered := synced_perform tracks entered.mirrored (fun _ => trivial) apart
  refine synced_onZoneChanged refiltered.keyed (fun live => ?_) fun live => ?_
  · rw [perform_shell]
    rw [perform_subscribed] at live
    exact apart live
  · have still := refiltered.mirrored live
    rw [perform_subscribed] at live
    rcases follows live with anew | same
    · refine Or.inl ?_
      rw [perform_shortZoneName, perform_lastSnapshotZone (plain_filtersChanged _ filterMask)]
      exact anew
    · refine Or.inr ⟨?_, still⟩
      rw [perform_client _ live, receiveAll_zoneShort (plain_filtersChanged _ filterMask)]
      exact same

theorem Synced.subscribe (synced : w.Synced g)
    (separable : w.subscribe.subscribed = true → w.subscribe.shell.Separable g)
    : w.subscribe.Synced g := by
  have live : w.subscribe.subscribed = true := by
    unfold ZoneSession.subscribe
    split
    · assumption
    · simp [sendSnapshot]
  have apart := separable live
  unfold ZoneSession.subscribe at apart ⊢
  split
  · exact synced
  · rename_i first
    rw [if_neg first] at apart
    refine synced_sendSnapshot (w := { w with subscribed := true, client := .fresh })
      synced.keyed ?_
    simpa [sendSnapshot] using apart

/-- One step keeps a subscribed client a mirror, where it finds what it must. -/
theorem Synced.step (synced : w.Synced g) (patchable : Patchable g) (op : ZoneOp)
    (follows : w.subscribed = true → w.Finds (SpawnShell.Follows g) op)
    (separable : (step op w).subscribed = true → (step op w).shell.Separable g)
    : (step op w).Synced g := by
  cases op with
  | shell op =>
      refine synced_perform (tracks_run synced.keyed patchable op) synced.mirrored follows ?_
      intro live
      have apart := separable ((perform_subscribed _).trans live)
      rw [ZoneSession.step, perform_shell] at apart
      exact apart
  | zoneBegin shortName filterMask => exact synced.zoneBegin shortName filterMask follows
  | zoneChanged shortName filterMask => exact synced.zoneChanged shortName filterMask follows
  | zoneResolved shortName filterMask =>
      refine synced.zoneResolved shortName filterMask (fun live => separable ?_) follows
      simpa only [ZoneSession.step, ZoneSession.zoneResolved, onZoneChanged_subscribed,
        perform_subscribed, enter_subscribed] using live
  | zoneManager shortName isZoning => exact synced.enter shortName isZoning
  | subscribe => exact synced.subscribe separable

end ZoneSession
end Scry
