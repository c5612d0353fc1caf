import Mathlib.Algebra.Group.Int.Defs
import Mathlib.Algebra.Group.Nat.Defs
import Mathlib.Logic.Function.Basic
import Scry.Spawns.Mirror

/-! Published hit points against what was last reported of them. The values on the wire are
signed 32-bit ones; they are stored as such and go out as unsigned ones, the player's own
statistics by way of 16 bits.
-/

namespace Scry

open SpawnShell

/-- The operations that touch hit points, and a client that subscribes. -/
inductive HpOp
  | updateSpawnHP (id : UInt16) (curHp maxHp : Int32)
  | updateNpcHP (id : UInt16) (curHp maxHp : Int32)
  | updateSpawnInfo (id subcommand : UInt16) (arg1 : Int32)
  | updateMobHealth (id : UInt16) (hpPercent : Int32)
  | upsertSpawn (id : UInt16) (r : SpawnRecord)
  | killSpawn (id killerId : UInt32)
  | setVitals (v : Vitals)
  | updatePlayerHP (id : UInt16) (curHp maxHp : Int32)
  | updatePlayerInfo (id subcommand : UInt16) (arg1 : Int32)
  | subscribe

/-- The operation on the shell. -/
def HpOp.run (sh : SpawnShell) : HpOp → SpawnShell × List SpawnSignal
  | .updateSpawnHP id curHp maxHp => sh.updateSpawnHP id curHp maxHp
  | .updateNpcHP id curHp maxHp => sh.updateNpcHP id curHp maxHp
  | .updateSpawnInfo id subcommand arg1 => sh.updateSpawnInfo id subcommand arg1
  | .updateMobHealth id hpPercent => sh.updateMobHealth id hpPercent
  | .upsertSpawn id r => sh.upsertSpawn id r
  | .killSpawn id killerId => sh.killSpawn id killerId
  | .setVitals v => sh.setVitals v
  | .updatePlayerHP id curHp maxHp => sh.updatePlayerHP id curHp maxHp
  | .updatePlayerInfo id subcommand arg1 => sh.updatePlayerInfo id subcommand arg1
  | .subscribe => (sh, [])

/-- A shell, what was last reported of its spawns' and its player's current hit points, and the
envelopes that the last operation sent.
-/
structure HpFeed where
  shell : SpawnShell
  zoneShort : String
  spawnHp : Nat → Option Int
  playerHp : Option Int
  sent : List ZoneEnvelope

namespace HpFeed

variable {f : HpFeed}

/-- Any shell, before any report. -/
def start (shell : SpawnShell) (zoneShort : String) : HpFeed :=
  { shell, zoneShort, spawnHp := fun _ => none, playerHp := none, sent := [] }

/-- A report about a spawn, taken down where the shell knows it. -/
def told (f : HpFeed) (key : Nat) (report : Spawn → Option Int) : Nat → Option Int :=
  match (f.shell.spawns.find? key).bind report with
  | some v => Function.update f.spawnHp key (some v)
  | none => f.spawnHp

/-- What is reported of the spawns: for `updateMobHealth`, the share of a maximum that is
known.
-/
def reportSpawn (f : HpFeed) : HpOp → Nat → Option Int
  | .updateSpawnHP id curHp _ => f.told id.toNat fun _ => some curHp.toInt
  | .updateNpcHP id curHp _ => f.told id.toNat fun _ => some curHp.toInt
  | .updateSpawnInfo id subcommand arg1 =>
      f.told id.toNat fun _ => if subcommand = 17 then some arg1.toInt else none
  | .updateMobHealth id hpPercent =>
      f.told id.toNat fun s =>
        if s.maxHP > 0 then some (s.maxHP.toInt * hpPercent.toInt / 100) else none
  | .upsertSpawn id r =>
      if id = f.shell.player.id then f.spawnHp
      else Function.update f.spawnHp id.toNat (some r.curHpPct.toNat)
  | .killSpawn id _ =>
      if id ≠ f.shell.player.id.toUInt32 then f.told id.toNat fun _ => some 0 else f.spawnHp
  | _ => f.spawnHp

/-- What is reported of the player. -/
def reportPlayer (f : HpFeed) : HpOp → Option Int
  | .killSpawn id _ => if id ≠ f.shell.player.id.toUInt32 then f.playerHp else some 0
  | .setVitals v => if v.haveHP then some v.hpCur.toNat else f.playerHp
  | .updatePlayerHP id curHp _ =>
      if id ≠ f.shell.player.id then f.playerHp else some curHp.toInt
  | .updatePlayerInfo id subcommand arg1 =>
      if id ≠ f.shell.player.id ∨ subcommand ≠ 17 then f.playerHp else some arg1.toInt
  | _ => f.playerHp

/-- The envelopes an operation sends. -/
def sends (f : HpFeed) : HpOp → List ZoneEnvelope
  | .subscribe => [snapshotOf f.shell f.zoneShort]
  | op => (op.run f.shell).2.flatMap (·.envelopes f.zoneShort)

/-- One operation. -/
def step (op : HpOp) (f : HpFeed) : HpFeed :=
  { f with
    shell := (op.run f.shell).1
    spawnHp := f.reportSpawn op
    playerHp := f.reportPlayer op
    sent := f.sends op }

end HpFeed

-----------------------------------------------------------------------------------------
-- What is published of an item
-----------------------------------------------------------------------------------------

/-- The current hit points in an envelope. -/
def ZoneEnvelope.hitPoints : ZoneEnvelope → List UInt32
  | .snapshot _ _ spawns => spawns.map WireSpawn.hpCur
  | .spawnAdded spawn => [spawn.hpCur]
  | .spawnUpdated updated => updated.hpCur.toList
  | .playerStats stats => [stats.hpCur]
  | _ => []

/-- An item's hit points in an envelope made of it. -/
inductive Publishes : SpawnItem → ZoneEnvelope → UInt32 → Prop
  | snapshot {item sh zoneShort} (listed : item ∈ snapshotItems sh)
    : Publishes item (snapshotOf sh zoneShort) (fillSpawn item).hpCur
  | added {item} : Publishes item (.spawnAdded (fillSpawn item)) (fillSpawn item).hpCur
  | updated {item changeType hp} (carried : (updatedFields item changeType).hpCur = some hp)
    : Publishes item (.spawnUpdated (updatedFields item changeType)) hp
  | stats {p} : Publishes (.player p) (.playerStats (fillPlayerStats p)) (fillPlayerStats p).hpCur

namespace HpFeed

variable {f : HpFeed}

/-- An item of the shell, or the player. -/
def Has (f : HpFeed) (item : SpawnItem) : Prop :=
  f.shell.Holds item ∨ item = .player f.shell.player

/-- What was last reported of an item. -/
inductive Reported (f : HpFeed) : SpawnItem → Int → Prop
  | spawn {key s v} (found : f.shell.spawns.find? key = some s) (told : f.spawnHp key = some v)
    : Reported f (.spawn s) v
  | player {v} (told : f.playerHp = some v) : Reported f (.player f.shell.player) v

/-- What an operation must find for the hit points it reports to be published as they are: no
handler but `updateSpawnHP` clamps, `updateMobHealth` multiplies in 32 bits, and the player's
statistics hold 16 bits.
-/
def Presentable (f : HpFeed) : HpOp → Prop
  | .updateNpcHP id curHp _ => ∀ s, f.shell.spawns.find? id.toNat = some s → 0 ≤ curHp.toInt
  | .updateSpawnInfo id subcommand arg1 =>
      subcommand = 17 → ∀ s, f.shell.spawns.find? id.toNat = some s → 0 ≤ arg1.toInt
  | .updateMobHealth id hpPercent =>
      ∀ s, f.shell.spawns.find? id.toNat = some s → s.maxHP > 0 →
        (0 ≤ hpPercent.toInt ∧ s.maxHP.toInt * hpPercent.toInt < 2 ^ 31)
        ∨ (hpPercent.toInt < 0 ∧ s.maxHP * hpPercent / 100 = 0)
  | .setVitals v => v.haveHP = true → v.hpCur.toNat < 2 ^ 16
  | .updatePlayerHP id curHp _ =>
      id = f.shell.player.id → 0 ≤ curHp.toInt ∧ curHp.toInt < 2 ^ 16
  | .updatePlayerInfo id subcommand arg1 =>
      id = f.shell.player.id → subcommand = 17 → 0 ≤ arg1.toInt ∧ arg1.toInt < 2 ^ 16
  | _ => True

-----------------------------------------------------------------------------------------
-- Stored hit points
-----------------------------------------------------------------------------------------

/-- A stored value that goes out as the reported one, clamped at 0. -/
def Fits (stored : Int32) (reported : Int) : Prop :=
  (stored.toUInt32.toNat : Int) = max 0 reported

theorem fits_of_nonneg {c : Int32} (nonneg : 0 ≤ c.toInt) : Fits c c.toInt := by
  have le : (0 : Int32) ≤ c := Int32.le_iff_toInt_le.mpr nonneg
  rw [Fits, Int32.toNat_toUInt32_of_le le, max_eq_right nonneg]
  exact Int.toNat_of_nonneg nonneg

theorem fits_clamped (c : Int32) : Fits (if c < 0 then 0 else c) c.toInt := by
  split
  · rename_i negative
    have below : c.toInt < 0 := Int32.lt_iff_toInt_lt.mp negative
    rw [Fits, max_eq_left below.le]
    rfl
  · rename_i nonneg
    exact fits_of_nonneg (not_lt.mp fun below => nonneg (Int32.lt_iff_toInt_lt.mpr below))

theorem fits_percent {maxHP percent : Int32} (known : maxHP > 0) (nonneg : 0 ≤ percent.toInt)
    (small : maxHP.toInt * percent.toInt < 2 ^ 31)
    : Fits (maxHP * percent / 100) (maxHP.toInt * percent.toInt / 100) := by
  have positive : 0 < maxHP.toInt := Int32.lt_iff_toInt_lt.mp known
  have product : 0 ≤ maxHP.toInt * percent.toInt :=
    Int.mul_nonneg positive.le nonneg
  have exact_ : (maxHP * percent).toInt = maxHP.toInt * percent.toInt := by
    rw [Int32.toInt_mul, Int.bmod_eq_of_le (by omega) (by omega)]
  have share : (maxHP * percent / 100).toInt = maxHP.toInt * percent.toInt / 100 := by
    rw [Int32.toInt_div_of_ne_right _ _ (by decide), exact_]
    exact Int.tdiv_eq_ediv_of_nonneg product
  rw [← share]
  refine fits_of_nonneg ?_
  rw [share]
  omega

theorem fits_noPercent {maxHP percent : Int32} (known : maxHP > 0) (negative : percent.toInt < 0)
    (small : maxHP * percent / 100 = 0)
    : Fits (maxHP * percent / 100) (maxHP.toInt * percent.toInt / 100) := by
  have positive : 0 < maxHP.toInt := Int32.lt_iff_toInt_lt.mp known
  have product : maxHP.toInt * percent.toInt < 0 := Int.mul_neg_of_pos_of_neg positive negative
  have share : maxHP.toInt * percent.toInt / 100 ≤ 0 := by omega
  rw [small, Fits, max_eq_left share]
  rfl

/-- The player's hit points that its statistics carry whole. -/
def FitsStats (stored : Int32) (reported : Int) : Prop :=
  Fits stored reported ∧ stored.toUInt32.toNat < 2 ^ 16

theorem fitsStats_of_nonneg {c : Int32} (nonneg : 0 ≤ c.toInt) (small : c.toInt < 2 ^ 16)
    : FitsStats c c.toInt := by
  have fits := fits_of_nonneg nonneg
  refine ⟨fits, ?_⟩
  rw [Fits, max_eq_right nonneg] at fits
  omega

theorem fitsStats_vitals {hp : UInt32} (small : hp.toNat < 2 ^ 16)
    : FitsStats hp.toInt32 hp.toNat := by
  refine ⟨?_, small⟩
  rw [Fits, UInt32.toUInt32_toInt32, max_eq_right (Int.natCast_nonneg _)]

theorem fits_byte (b : UInt8) : Fits b.toUInt32.toInt32 b.toNat := by
  rw [Fits, UInt32.toUInt32_toInt32, UInt8.toNat_toUInt32, max_eq_right (Int.natCast_nonneg _)]

-----------------------------------------------------------------------------------------
-- Reports and what is stored of them
-----------------------------------------------------------------------------------------

/-- What is stored of every spawn and of the player goes out as it was last reported. -/
structure Sound (f : HpFeed) : Prop where
  spawn
    : ∀ key s v, f.shell.spawns.find? key = some s → f.spawnHp key = some v → Fits s.curHP v
  player : ∀ v, f.playerHp = some v → FitsStats f.shell.player.base.curHP v

/-- A change to a known spawn along with the report that it makes. -/
theorem Sound.withSpawn (sound : f.Sound) {key : Nat} {g : Spawn → Spawn × List SpawnSignal}
    {report : Spawn → Option Int}
    (stored
      : ∀ s v, f.shell.spawns.find? key = some s → report s = some v → Fits (g s).1.curHP v)
    (kept : ∀ s, report s = none → (g s).1.curHP = s.curHP)
    : ∀ k t v, (f.shell.withSpawn key g).1.spawns.find? k = some t → f.told key report k = some v →
        Fits t.curHP v := by
  intro k t v found reported
  simp only [SpawnShell.withSpawn, told] at found reported
  cases known : f.shell.spawns.find? key with
  | none =>
      simp only [known, Option.bind_none] at found reported
      exact sound.spawn k t v found reported
  | some s =>
      simp only [known, Option.bind_some, setSpawn] at found reported
      by_cases same : k = key
      · subst same
        rw [OrderedMap.find?_insert_self] at found
        obtain rfl := Option.some.inj found
        cases told : report s with
        | none =>
            rw [told] at reported
            rw [kept s told]
            exact sound.spawn k s v known reported
        | some w =>
            rw [told] at reported
            simp only [Function.update_self, Option.some.injEq] at reported
            exact reported ▸ stored s w known told
      · rw [OrderedMap.find?_insert_of_ne _ _ same] at found
        cases told : report s with
        | none =>
            rw [told] at reported
            exact sound.spawn k t v found reported
        | some w =>
            rw [told] at reported
            simp only [Function.update_of_ne same] at reported
            exact sound.spawn k t v found reported

theorem withSpawn_player (sh : SpawnShell) (key : Nat) (g : Spawn → Spawn × List SpawnSignal)
    : (sh.withSpawn key g).1.player = sh.player := by
  simp only [SpawnShell.withSpawn]
  split <;> rfl

/-- An operation that only concerns the player. -/
theorem Sound.onPlayer (sound : f.Sound) {sh : SpawnShell} {playerHp : Option Int}
    {sent : List ZoneEnvelope} (spawns : sh.spawns = f.shell.spawns)
    (player : ∀ v, playerHp = some v → FitsStats sh.player.base.curHP v)
    : Sound { f with shell := sh, playerHp, sent } where
  spawn key s v found reported := sound.spawn key s v (spawns ▸ found) reported
  player := player

/-- An operation that only concerns one spawn. -/
theorem Sound.onSpawn (sound : f.Sound) {key : Nat} {g : Spawn → Spawn × List SpawnSignal}
    {report : Spawn → Option Int} {sent : List ZoneEnvelope}
    (stored
      : ∀ s v, f.shell.spawns.find? key = some s → report s = some v → Fits (g s).1.curHP v)
    (kept : ∀ s, report s = none → (g s).1.curHP = s.curHP)
    : Sound
        { f with shell := (f.shell.withSpawn key g).1, spawnHp := f.told key report, sent } where
  spawn := sound.withSpawn stored kept
  player v reported := by
    rw [withSpawn_player]
    exact sound.player v reported

/-- A spawn put under a key with the hit points reported of it. -/
theorem Sound.setSpawn (sound : f.Sound) {key : Nat} {s : Spawn} {v : Int}
    {sent : List ZoneEnvelope} (fits : Fits s.curHP v)
    : Sound
        { f with
          shell := f.shell.setSpawn key s
          spawnHp := Function.update f.spawnHp key (some v), sent } where
  spawn k t w found reported := by
    simp only [SpawnShell.setSpawn] at found reported
    by_cases same : k = key
    · subst same
      rw [OrderedMap.find?_insert_self] at found
      rw [Function.update_self] at reported
      exact Option.some.inj found ▸ Option.some.inj reported ▸ fits
    · rw [OrderedMap.find?_insert_of_ne _ _ same] at found
      rw [Function.update_of_ne same] at reported
      exact sound.spawn k t w found reported
  player := sound.player

/-- Every operation that finds what it must keeps what is stored sound. -/
theorem Sound.step (sound : f.Sound) (op : HpOp) (presentable : f.Presentable op)
    : (step op f).Sound := by
  cases op with
  | updateSpawnHP id curHp maxHp =>
      refine sound.onSpawn (fun s v _ reported => ?_) (by simp)
      exact Option.some.inj reported ▸ fits_clamped curHp
  | updateNpcHP id curHp maxHp =>
      refine sound.onSpawn (fun s v known reported => ?_) (by simp)
      exact Option.some.inj reported ▸ fits_of_nonneg (presentable s known)
  | updateSpawnInfo id subcommand arg1 =>
      by_cases current : subcommand = 17
      · refine sound.onSpawn (fun s v known reported => ?_) (by simp [current])
        simp only [current, if_true] at reported ⊢
        exact Option.some.inj reported ▸ fits_of_nonneg (presentable current s known)
      · refine sound.onSpawn (fun s v _ reported => ?_) (by simp [current])
        simp [current] at reported
  | updateMobHealth id hpPercent =>
      refine sound.onSpawn (fun s v known reported => ?_) fun s unknown => ?_
      · by_cases cached : s.maxHP > 0
        · simp only [cached, if_true] at reported ⊢
          rcases presentable s known cached with ⟨nonneg, small⟩ | ⟨negative, small⟩
          · exact Option.some.inj reported ▸ fits_percent cached nonneg small
          · exact Option.some.inj reported ▸ fits_noPercent cached negative small
        · simp [cached] at reported
      · by_cases cached : s.maxHP > 0
        · simp [cached] at unknown
        · simp [cached]
  | upsertSpawn id r =>
      by_cases own : id = f.shell.player.id
      · have same : (f.shell.upsertSpawn id r).1 = f.shell := by
          rw [SpawnShell.upsertSpawn, if_pos own]
        simp only [HpFeed.step, reportSpawn, reportPlayer, HpOp.run, if_pos own, same]
        exact ⟨sound.spawn, sound.player⟩
      · simp only [HpFeed.step, reportSpawn, reportPlayer, HpOp.run, SpawnShell.upsertSpawn,
          if_neg own]
        cases f.shell.spawns.find? id.toNat with
        | some s => exact sound.setSpawn (fits_byte r.curHpPct)
        | none => exact sound.setSpawn (fits_byte r.curHpPct)
  | killSpawn id killerId =>
      by_cases own : id ≠ f.shell.player.id.toUInt32
      · simp only [HpFeed.step, reportSpawn, reportPlayer, HpOp.run, SpawnShell.killSpawn,
          if_pos own]
        refine sound.onSpawn (fun s v _ reported => ?_) (by simp)
        exact Option.some.inj reported ▸ fits_of_nonneg (c := 0) le_rfl
      · simp only [HpFeed.step, reportSpawn, reportPlayer, HpOp.run, SpawnShell.killSpawn,
          if_neg own]
        refine sound.onPlayer ?_ fun v reported => ?_
        · rfl
        · exact Option.some.inj reported ▸ fitsStats_of_nonneg (c := 0) le_rfl (by decide)
  | setVitals v =>
      by_cases reported : v.haveHP = true
      · simp only [HpFeed.step, reportSpawn, reportPlayer, HpOp.run, SpawnShell.setVitals,
          reported, Bool.not_true, Bool.false_and, Bool.false_eq_true, if_false, if_true]
        refine sound.onPlayer ?_ fun w told => ?_
        · rfl
        · exact Option.some.inj told ▸ fitsStats_vitals (presentable reported)
      · have same : (f.shell.setVitals v).1 = f.shell := by
          rw [SpawnShell.setVitals]
          split
          · rfl
          · rfl
        simp only [HpFeed.step, reportSpawn, reportPlayer, HpOp.run, same, if_neg reported]
        exact ⟨sound.spawn, sound.player⟩
  | updatePlayerHP id curHp maxHp =>
      by_cases other : id ≠ f.shell.player.id
      · simp only [HpFeed.step, reportSpawn, reportPlayer, HpOp.run, SpawnShell.updatePlayerHP,
          if_pos other]
        exact ⟨sound.spawn, sound.player⟩
      · simp only [HpFeed.step, reportSpawn, reportPlayer, HpOp.run, SpawnShell.updatePlayerHP,
          if_neg other]
        obtain ⟨nonneg, small⟩ := presentable (not_not.mp other)
        refine sound.onPlayer ?_ fun v reported => ?_
        · rfl
        · exact Option.some.inj reported ▸ fitsStats_of_nonneg nonneg small
  | updatePlayerInfo id subcommand arg1 =>
      by_cases other : id ≠ f.shell.player.id ∨ subcommand ≠ 17
      · simp only [HpFeed.step, reportSpawn, reportPlayer, HpOp.run,
          SpawnShell.updatePlayerInfo, if_pos other]
        exact ⟨sound.spawn, sound.player⟩
      · simp only [HpFeed.step, reportSpawn, reportPlayer, HpOp.run,
          SpawnShell.updatePlayerInfo, if_neg other]
        obtain ⟨own, current⟩ := not_or.mp other
        obtain ⟨nonneg, small⟩ := presentable (not_not.mp own) (not_not.mp current)
        refine sound.onPlayer ?_ fun v reported => ?_
        · rfl
        · exact Option.some.inj reported ▸ fitsStats_of_nonneg nonneg small
  | subscribe => exact ⟨sound.spawn, sound.player⟩

-----------------------------------------------------------------------------------------
-- Envelopes and what they are made of
-----------------------------------------------------------------------------------------

/-- A signal about an item of the shell as it stands, or about the player. -/
def About (sh : SpawnShell) : SpawnSignal → Prop
  | .addItem item => sh.Holds item ∨ item = .player sh.player
  | .changeItem item _ => sh.Holds item ∨ item = .player sh.player
  | .statsChanged player => player = sh.player
  | .killSpawn _ _ => True
  | _ => False

theorem publishes_changed {item : SpawnItem} {changeType hp : UInt32}
    (carried : hp ∈ (onChangeItem item changeType).hitPoints)
    : Publishes item (onChangeItem item changeType) hp := by
  simp only [onChangeItem] at carried ⊢
  split at carried
  · rename_i full
    rw [if_pos full]
    obtain rfl := List.mem_singleton.mp carried
    exact .added
  · rename_i some
    rw [if_neg some]
    exact .updated (Option.mem_toList.mp carried)

/-- Hit points in a signal's envelopes are those of an item. -/
theorem published_of_about {sh : SpawnShell} {signal : SpawnSignal} (about : About sh signal)
    {zoneShort : String} {env : ZoneEnvelope} (sent : env ∈ signal.envelopes zoneShort)
    {hp : UInt32} (carried : hp ∈ env.hitPoints)
    : ∃ item, (sh.Holds item ∨ item = .player sh.player) ∧ Publishes item env hp := by
  cases signal with
  | addItem item =>
      obtain rfl := List.mem_singleton.mp sent
      obtain rfl := List.mem_singleton.mp carried
      exact ⟨item, about, .added⟩
  | changeItem item changeType =>
      obtain rfl := List.mem_singleton.mp sent
      exact ⟨item, about, publishes_changed carried⟩
  | statsChanged player =>
      obtain rfl := List.mem_singleton.mp sent
      obtain rfl := List.mem_singleton.mp carried
      exact ⟨.player player, Or.inr (congrArg _ about), .stats⟩
  | killSpawn deceased killerId =>
      obtain rfl := List.mem_singleton.mp sent
      exact absurd carried List.not_mem_nil
  | delItem item => exact absurd about id
  | changedID shell => exact absurd about id

/-- A change to a known spawn that is signalled of nothing else. -/
theorem about_withSpawn {sh : SpawnShell} {key : Nat} {g : Spawn → Spawn × List SpawnSignal}
    (own
      : ∀ s, ∀ signal ∈ (g s).2,
          (∃ changeType, signal = .changeItem (.spawn (g s).1) changeType)
          ∨ ∃ deceased killerId, signal = .killSpawn deceased killerId)
    : ∀ signal ∈ (sh.withSpawn key g).2, About (sh.withSpawn key g).1 signal := by
  intro signal member
  simp only [SpawnShell.withSpawn] at member ⊢
  cases known : sh.spawns.find? key with
  | none => simp [known] at member
  | some s =>
      simp only [known] at member ⊢
      rcases own s signal member with ⟨changeType, rfl⟩ | ⟨deceased, killerId, rfl⟩
      · exact Or.inl (.spawn (OrderedMap.find?_insert_self _ _ _))
      · trivial

/-- The player's hit points stored, and signalled or not. -/
theorem about_player {sh : SpawnShell} {signals : List SpawnSignal}
    (own
      : ∀ signal ∈ signals,
          (∃ changeType, signal = .changeItem (.player sh.player) changeType)
          ∨ signal = .statsChanged sh.player)
    : ∀ signal ∈ signals, About sh signal := by
  intro signal member
  rcases own signal member with ⟨changeType, rfl⟩ | rfl
  · exact Or.inr rfl
  · rfl

/-- Every operation's signals are about the shell that it leaves. -/
theorem about_run (sh : SpawnShell) (op : HpOp)
    : ∀ signal ∈ (op.run sh).2, About (op.run sh).1 signal := by
  cases op with
  | updateSpawnHP id curHp maxHp => exact about_withSpawn (by simp)
  | updateNpcHP id curHp maxHp => exact about_withSpawn (by simp)
  | updateSpawnInfo id subcommand arg1 =>
      refine about_withSpawn fun s signal member => ?_
      by_cases current : subcommand = 17
      · simp only [current, if_true, List.mem_singleton] at member ⊢
        exact Or.inl ⟨_, member⟩
      · simp [current] at member
  | updateMobHealth id hpPercent => exact about_withSpawn (by simp)
  | upsertSpawn id r =>
      simp only [HpOp.run, SpawnShell.upsertSpawn]
      split
      · simp
      · cases sh.spawns.find? id.toNat with
        | some s =>
            intro signal member
            rw [List.mem_singleton.mp member]
            exact Or.inl (.spawn (OrderedMap.find?_insert_self _ _ _))
        | none =>
            intro signal member
            rw [List.mem_singleton.mp member]
            exact Or.inl (.spawn (OrderedMap.find?_insert_self _ _ _))
  | killSpawn id killerId =>
      simp only [HpOp.run, SpawnShell.killSpawn]
      split
      · exact about_withSpawn (by simp)
      · intro signal member
        rw [List.mem_singleton.mp member]
        trivial
  | setVitals v =>
      simp only [HpOp.run, SpawnShell.setVitals]
      split
      · simp
      · exact about_player (by simp)
  | updatePlayerHP id curHp maxHp =>
      simp only [HpOp.run, SpawnShell.updatePlayerHP]
      split
      · simp
      · exact about_player (by simp)
  | updatePlayerInfo id subcommand arg1 =>
      simp only [HpOp.run, SpawnShell.updatePlayerInfo]
      split
      · simp
      · exact about_player (by simp)
  | subscribe => exact fun _ member => absurd member List.not_mem_nil

theorem has_of_mem_snapshotItems {item : SpawnItem} (listed : item ∈ snapshotItems f.shell)
    : f.Has item := by
  simp only [snapshotItems] at listed
  split at listed
  · rcases List.mem_append.mp listed with held | player
    · exact Or.inl (mem_items.mp held)
    · exact Or.inr (List.mem_singleton.mp player)
  · exact Or.inl (mem_items.mp listed)

/-- Hit points are published of the shell's items only. -/
theorem published_step (f : HpFeed) (op : HpOp) {env : ZoneEnvelope}
    (sent : env ∈ (step op f).sent) {hp : UInt32} (carried : hp ∈ env.hitPoints)
    : ∃ item, (step op f).Has item ∧ Publishes item env hp := by
  have signalled (other : (step op f).sent = (op.run f.shell).2.flatMap (·.envelopes f.zoneShort))
      : ∃ item, (step op f).Has item ∧ Publishes item env hp := by
    rw [other] at sent
    obtain ⟨signal, member, env_⟩ := List.mem_flatMap.mp sent
    exact published_of_about (about_run f.shell op signal member) env_ carried
  cases op with
  | subscribe =>
      obtain rfl := List.mem_singleton.mp sent
      simp only [snapshotOf, ZoneEnvelope.hitPoints, List.map_map, List.mem_map,
        SpawnItem.mem_inOrder, Function.comp_apply] at carried
      obtain ⟨item, listed, rfl⟩ := carried
      exact ⟨item, has_of_mem_snapshotItems listed, .snapshot listed⟩
  | _ => exact signalled rfl

theorem hpCur_updatedFields {item : SpawnItem} {changeType hp : UInt32}
    (carried : (updatedFields item changeType).hpCur = some hp)
    : hp = (fillSpawn item).hpCur := by
  cases item with
  | spawn s =>
      simp only [updatedFields, spawnUpdated] at carried
      split at carried
      · exact (Option.some.inj carried).symm
      · exact absurd carried (by simp)
  | player p =>
      simp only [updatedFields, spawnUpdated] at carried
      split at carried
      · exact (Option.some.inj carried).symm
      · exact absurd carried (by simp)
  | door t => exact absurd carried (by simp [updatedFields])
  | drop t => exact absurd carried (by simp [updatedFields])

/-- Statistics that fit carry the hit points whole. -/
theorem hpCur_fillPlayerStats {p : Player} (small : p.base.curHP.toUInt32.toNat < 2 ^ 16)
    : (fillPlayerStats p).hpCur.toNat = p.base.curHP.toUInt32.toNat := by
  simp only [fillPlayerStats, UInt16.toNat_toUInt32, UInt32.toNat_toUInt16]
  omega

/-- Sound hit points are published as they were reported. -/
theorem Sound.published (sound : f.Sound) {item : SpawnItem} {v : Int}
    (reported : f.Reported item v) {env : ZoneEnvelope} {hp : UInt32}
    (published : Publishes item env hp)
    : (hp.toNat : Int) = max 0 v := by
  have whole : ((fillSpawn item).hpCur.toNat : Int) = max 0 v := by
    cases reported with
    | spawn found told => exact sound.spawn _ _ _ found told
    | player told =>
        have fits := (sound.player v told).1
        rwa [Fits, ← Player.shown_curHP] at fits
  cases published with
  | snapshot listed => exact whole
  | added => exact whole
  | updated carried => exact hpCur_updatedFields carried ▸ whole
  | stats =>
      cases reported with
      | player told =>
          obtain ⟨fits, small⟩ := sound.player v told
          rw [hpCur_fillPlayerStats small]
          exact fits

/-- In every run whose reports are presentable, all hit points sent are those of items, and of
an item none are sent but what was last reported of it, clamped at 0.
-/
theorem hitPoints_sane {shell : SpawnShell} {zoneShort : String}
    (reached : Machine.Reaches step Presentable (start shell zoneShort) f)
    : (∀ env ∈ f.sent, ∀ hp ∈ env.hitPoints, ∃ item, f.Has item ∧ Publishes item env hp)
      ∧ ∀ item v, f.Reported item v → ∀ env hp, Publishes item env hp →
          (hp.toNat : Int) = max 0 v := by
  have sound : f.Sound := by
    refine reached.invariant ?_ fun f op presentable sound => sound.step op presentable
    exact ⟨fun _ _ _ _ told => absurd told (by simp [start]),
      fun _ told => absurd told (by simp [start])⟩
  refine ⟨?_, fun item v reported env hp published => sound.published reported published⟩
  cases reached with
  | start => exact fun env sent => absurd sent List.not_mem_nil
  | step _ op _ => exact fun env sent hp carried => published_step _ op sent carried

/-- A spawn at half its hit points, and then at `curHp` by one of two handlers. -/
def hurt (op : HpOp) : List HpOp :=
  [.upsertSpawn 6
      { name := "a_rat00", lastName := "", x := 0, y := 0, z := 0, heading := 0, level := 1
        curHpPct := 50, maxHpPct := 100, race := 36, classVal := 1, deity := 0, guildID := 0
        guildServerID := 0, npc := 1, classMask := 0 },
    op]

/-- The handler that clamps. -/
theorem hitPoints_sane_hurt
    : let f := Machine.exec step (start ZoneSession.newcomer "") (hurt (.updateSpawnHP 6 (-1) 100))
      (∀ env ∈ f.sent, ∀ hp ∈ env.hitPoints, ∃ item, f.Has item ∧ Publishes item env hp)
      ∧ ∀ item v, f.Reported item v → ∀ env hp, Publishes item env hp →
          (hp.toNat : Int) = max 0 v :=
  hitPoints_sane (Machine.reaches_exec ⟨trivial, trivial, trivial⟩)

/-- One that does not sends a wrapped value. -/
theorem hitPoints_wrapped
    : ¬ (∀ f, Machine.Reaches step (fun _ _ => True) (start ZoneSession.newcomer "") f →
        ∀ item v, f.Reported item v → ∀ env ∈ f.sent, ∀ hp, Publishes item env hp →
          (hp.toNat : Int) = max 0 v) := by
  intro sane
  have reached : Machine.Reaches step (fun _ _ => True) (start ZoneSession.newcomer "")
      (Machine.exec step (start ZoneSession.newcomer "") (hurt (.updateNpcHP 6 (-1) 100))) :=
    Machine.reaches_exec ⟨trivial, trivial, trivial⟩
  obtain ⟨s, found, sent, carried, hp⟩
      : ∃ s,
          (Machine.exec step (start ZoneSession.newcomer "")
            (hurt (.updateNpcHP 6 (-1) 100))).shell.spawns.find? 6 = some s
          ∧ (Machine.exec step (start ZoneSession.newcomer "")
              (hurt (.updateNpcHP 6 (-1) 100))).sent
            = [.spawnUpdated (updatedFields (.spawn s) tSpawnChangedHP)]
          ∧ (updatedFields (.spawn s) tSpawnChangedHP).hpCur = some s.curHP.toUInt32
          ∧ s.curHP.toUInt32 = 4294967295 :=
    ⟨_, rfl, rfl, rfl, by decide⟩
  have told : (Machine.exec step (start ZoneSession.newcomer "")
      (hurt (.updateNpcHP 6 (-1) 100))).spawnHp 6 = some (-1) := by decide
  have wrapped := sane _ reached _ _ (.spawn found told) _ (sent ▸ List.mem_singleton_self _) _
    (.updated carried)
  rw [hp] at wrapped
  exact absurd wrapped (by decide)

end HpFeed
end Scry
