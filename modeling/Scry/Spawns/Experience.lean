import Scry.Library.Machine
import Mathlib.Data.List.Basic

/-! The experience the player is told to have gained.
Experience runs from 0 to 100000 within a level and starts again at the next one, so that what
was gained is a difference on the scale of all levels together.
-/

namespace Scry

/-- A level and the experience within it. -/
structure Standing where
  level : Int
  exp : Nat

namespace Standing

/-- The experience from one level to the next. -/
def perLevel : Nat := 100000

/-- The experience of all levels together. -/
def total (s : Standing) : Int := perLevel * s.level + s.exp

/-- The experience gained between two standings, none where there was a loss. -/
def gained (before after : Standing) : Nat := (after.total - before.total).toNat

variable {before after : Standing}

/-- Within a level, what is gained is the difference, and nothing where it does not rise. -/
theorem gained_sameLevel (same : after.level = before.level)
    : before.gained after = after.exp - before.exp := by
  simp only [gained, total, perLevel, same]
  omega

/-- One level up, the rest of the old level is gained and what there is of the new one. -/
theorem gained_levelUp (up : after.level = before.level + 1) (within : before.exp ≤ perLevel)
    : before.gained after = (perLevel - before.exp) + after.exp := by
  simp only [perLevel] at within
  simp only [gained, total, perLevel, up]
  omega

end Standing

/-- What `decode_exp_update` finds in an `expUpdateStruct`. -/
structure ExpUpdate where
  exp : UInt32
  kind : UInt32
  deriving DecidableEq

/-- What `decode_level_update` finds in a `levelUpUpdateStruct`. -/
structure LevelUpdate where
  level : UInt32
  exp : UInt32
  deriving DecidableEq

/-- What a player's profile tells of level and experience. -/
structure ExpProfile where
  level : UInt8
  exp : UInt32
  deriving DecidableEq

/-- The signals of `Player` about its experience. -/
inductive ExpSignal
  | newExp (newExp totalExp totalTick minExpLevel maxExpLevel tickExpLevel : UInt32)
  | setExp (totalExp totalTick minExpLevel maxExpLevel tickExpLevel : UInt32)
  | expChangedInt (value min max : Int32)
  | expGained (name : String) (level : Int32) (xpGained : Int) (zone : String)
  deriving DecidableEq

/-- The increment a signal carries. -/
def ExpSignal.increment? : ExpSignal → Option Int
  | .newExp increment .. => some increment.toNat
  | .expGained _ _ increment _ => some increment
  | _ => none

/-- What `Player` keeps of its level, its experience and its last kill. -/
structure PlayerExp where
  level : Int32
  currentExp : UInt32
  minExp : UInt32
  maxExp : UInt32
  tickExp : UInt32
  validExp : Bool
  lastSpawnKilledName : String
  lastSpawnKilledLevel : Int32
  freshKill : Bool
  deriving DecidableEq

namespace PlayerExp

/-- `reset` and then `clear`. -/
def reset : PlayerExp :=
  { level := 1
    currentExp := 0
    minExp := 0
    maxExp := 100000
    tickExp := 1
    validExp := false
    lastSpawnKilledName := "unknown"
    lastSpawnKilledLevel := 0
    freshKill := false }

/-- `loadProfile`. -/
def loadProfile (p : PlayerExp) (profile : ExpProfile) : PlayerExp :=
  { p with
    level := profile.level.toUInt32.toInt32
    minExp := 0
    maxExp := 100000
    tickExp := 1 }

/-- `Player::player`, which loads the profile and takes the experience from it. -/
def player (p : PlayerExp) (profile : ExpProfile) : PlayerExp × List ExpSignal :=
  let p := { p.loadProfile profile with currentExp := profile.exp, validExp := true }
  (p, [.expChangedInt p.currentExp.toInt32 p.minExp.toInt32 p.maxExp.toInt32])

/-- `setLastKill`. -/
def setLastKill (p : PlayerExp) (name : String) (level : Int32) : PlayerExp :=
  { p with lastSpawnKilledName := name, lastSpawnKilledLevel := level, freshKill := true }

/-- The `setExp` signal of `updateExp`. -/
def emitSetExp (p : PlayerExp) (out : ExpUpdate) : ExpSignal :=
  .setExp p.currentExp out.exp p.minExp p.maxExp p.tickExp

/-- The `expGained` signal for the last kill. -/
def emitKill (p : PlayerExp) (expIncrement : UInt32) (zone : String) : ExpSignal :=
  .expGained p.lastSpawnKilledName p.lastSpawnKilledLevel expIncrement.toNat zone

/-- `updateExp`; there is nothing to update from where the decoder fails. -/
def updateExp (zone : String) (p : PlayerExp) : Option ExpUpdate → PlayerExp × List ExpSignal
  | none => (p, [])
  | some out =>
      let realExp := p.tickExp * out.exp + p.minExp
      let expIncrement := if realExp > p.currentExp then realExp - p.currentExp else 0
      let hadValidExp := p.validExp
      let p := { p with currentExp := realExp, validExp := true }
      let signals :=
        [.newExp expIncrement realExp out.exp p.minExp p.maxExp p.tickExp,
          .expChangedInt realExp.toInt32 p.minExp.toInt32 p.maxExp.toInt32]
      if out.kind = 0 then
        (p, signals ++ [p.emitSetExp out])
      else if p.freshKill then
        ({ p with freshKill := false }, signals ++ [p.emitKill expIncrement zone])
      else
        (p, signals ++ [p.emitSetExp out]
          ++ if expIncrement > 0 && hadValidExp then
            [.expGained "" 0 expIncrement.toNat zone]
          else
            [])

/-- `updateLevel`, whose increment is the difference of the two values. -/
def updateLevel (zone : String) (p : PlayerExp)
    : Option LevelUpdate → PlayerExp × List ExpSignal
  | none => (p, [])
  | some out =>
      let prevExp := p.currentExp
      let p :=
        { p with
          level := out.level.toInt32
          minExp := 0
          maxExp := 100000
          tickExp := 1
          currentExp := out.exp
          validExp := true }
      let expIncrement := p.currentExp - prevExp
      let gained :=
        if p.freshKill then
          p.emitKill expIncrement zone
        else
          .expGained "Unknown" 0 expIncrement.toNat zone
      ({ p with freshKill := false },
        [.newExp expIncrement p.currentExp out.exp p.minExp p.maxExp p.tickExp, gained,
          .expChangedInt p.currentExp.toInt32 p.minExp.toInt32 p.maxExp.toInt32])

end PlayerExp

/-- What happens to the experience of a player. -/
inductive ExpOp
  | player (profile : ExpProfile)
  | updateExp (out : Option ExpUpdate)
  | updateLevel (out : Option LevelUpdate)
  | setLastKill (name : String) (level : Int32)
  deriving DecidableEq

namespace PlayerExp

/-- What one operation makes of a player, and the signals it emits. -/
def run (zone : String) (op : ExpOp) (p : PlayerExp) : PlayerExp × List ExpSignal :=
  match op with
  | .player profile => p.player profile
  | .updateExp out => p.updateExp zone out
  | .updateLevel out => p.updateLevel zone out
  | .setLastKill name level => (p.setLastKill name level, [])

/-- The player after one operation. -/
def step (zone : String) (op : ExpOp) (p : PlayerExp) : PlayerExp := (p.run zone op).1

/-- The increments one operation emits. -/
def increments (p : PlayerExp) (zone : String) (op : ExpOp) : List Int :=
  (p.run zone op).2.filterMap ExpSignal.increment?

/-- Where the player stands. -/
def standing (p : PlayerExp) : Standing := ⟨p.level.toInt, p.currentExp.toNat⟩

/-- The scale every level has, and an experience on it. -/
structure OnScale (p : PlayerExp) : Prop where
  exp : p.currentExp ≤ 100000
  min : p.minExp = 0
  max : p.maxExp = 100000
  tick : p.tickExp = 1

theorem onScale_reset : reset.OnScale := ⟨by decide, rfl, rfl, rfl⟩

end PlayerExp

/-- The experience an operation reports is on the scale of a level. -/
def ExpOp.OnScale : ExpOp → Prop
  | .player profile => profile.exp ≤ 100000
  | .updateExp out => ∀ update ∈ out, update.exp ≤ 100000
  | .updateLevel out => ∀ update ∈ out, update.exp ≤ 100000
  | .setLastKill _ _ => True

namespace PlayerExp

/-- Every increment an operation emits is what the player gains by it, and no more than the
old level and what there is of the new one.
-/
def TellsGain (zone : String) (p : PlayerExp) (op : ExpOp) : Prop :=
  ∀ increment ∈ p.increments zone op,
    increment = p.standing.gained (p.step zone op).standing
    ∧ increment ≤ Standing.perLevel + (p.step zone op).standing.exp

/-- No level is gained: the player stays on its level with no less experience, or falls to a
lower level with the same value.
-/
def GainsNoLevel (p : PlayerExp) : ExpOp → Prop
  | .updateLevel (some out) =>
      (out.level.toInt32 = p.level ∧ p.currentExp ≤ out.exp)
      ∨ (out.level.toInt32 < p.level ∧ out.exp = p.currentExp)
  | _ => True

variable {p : PlayerExp} {zone : String}

/-- On the scale of a level an update is the experience itself. -/
theorem OnScale.realExp (scale : p.OnScale) (exp : UInt32)
    : p.tickExp * exp + p.minExp = exp := by
  rw [scale.tick, scale.min, UInt32.one_mul, UInt32.add_zero]

/-- The scale is kept by every operation on it. -/
theorem OnScale.step (scale : p.OnScale) {op : ExpOp} (within : op.OnScale)
    : (p.step zone op).OnScale := by
  have realExp := scale.realExp
  obtain ⟨exp, min, max, tick⟩ := scale
  cases op with
  | player profile => exact ⟨within, rfl, rfl, rfl⟩
  | setLastKill name level => exact ⟨exp, min, max, tick⟩
  | updateLevel out =>
      cases out with
      | none => exact ⟨exp, min, max, tick⟩
      | some out => exact ⟨within out rfl, rfl, rfl, rfl⟩
  | updateExp out =>
      cases out with
      | none => exact ⟨exp, min, max, tick⟩
      | some out =>
          have real : p.tickExp * out.exp + p.minExp ≤ 100000 :=
            (realExp out.exp).symm ▸ within out rfl
          simp only [PlayerExp.step, run, updateExp]
          split
          · exact ⟨real, min, max, tick⟩
          · split
            · exact ⟨real, min, max, tick⟩
            · exact ⟨real, min, max, tick⟩

/-- The increment of `updateExp` is the rise of the experience, whatever signals carry it. -/
theorem eq_of_mem_updateExp (scale : p.OnScale) {out : ExpUpdate} {increment : Int}
    (emitted : increment ∈ p.increments zone (.updateExp (some out)))
    : increment = (out.exp.toNat - p.currentExp.toNat : Nat) := by
  have real := scale.realExp out.exp
  obtain ⟨rise, guarded⟩ :
      ∃ rise, rise = if out.exp > p.currentExp then out.exp - p.currentExp else 0 := ⟨_, rfl⟩
  have difference : rise.toNat = out.exp.toNat - p.currentExp.toNat := by
    rw [guarded]
    split
    case isTrue more => exact UInt32.toNat_sub_of_le _ _ (UInt32.le_of_lt more)
    case isFalse less =>
      have le := UInt32.le_iff_toNat_le.mp (UInt32.not_lt.mp less)
      exact (Nat.sub_eq_zero_of_le le).symm
  obtain ⟨signal, mem, carries⟩ := List.mem_filterMap.mp emitted
  simp only [run, updateExp, real, ← guarded] at mem
  have told : signal.increment? = none ∨ signal.increment? = some (rise.toNat : Int) := by
    split at mem
    · simp only [List.cons_append, List.nil_append, List.mem_cons, List.not_mem_nil,
        or_false] at mem
      rcases mem with rfl | rfl | rfl
      · exact .inr rfl
      · exact .inl rfl
      · exact .inl rfl
    · split at mem
      · simp only [List.cons_append, List.nil_append, List.mem_cons, List.not_mem_nil,
          or_false] at mem
        rcases mem with rfl | rfl | rfl
        · exact .inr rfl
        · exact .inl rfl
        · exact .inr rfl
      · simp only [List.cons_append, List.nil_append, List.mem_cons] at mem
        rcases mem with rfl | rfl | rfl | group
        · exact .inr rfl
        · exact .inl rfl
        · exact .inl rfl
        · split at group
          · obtain rfl := List.mem_singleton.mp group
            exact .inr rfl
          · exact absurd group List.not_mem_nil
  rw [← difference]
  rcases told with nothing | rises
  · exact absurd (nothing.symm.trans carries) (by simp)
  · exact Option.some.inj (carries.symm.trans rises)

/-- `updateLevel` emits the difference of the two values as 32-bit numbers. -/
theorem mem_updateLevel {out : LevelUpdate} {increment : Int}
    : increment ∈ p.increments zone (.updateLevel (some out))
      ↔ increment = ((out.exp - p.currentExp).toNat : Int) := by
  cases fresh : p.freshKill <;>
    simp [increments, run, updateLevel, emitKill, ExpSignal.increment?, fresh]

/-- Between two values of a level's scale, the 32-bit difference is what was gained exactly where
no level was: on the way up it lacks the level, on the way down it wraps.
-/
theorem sub_eq_gained_iff {level next : Int32} {exp nextExp : UInt32} (within : exp ≤ 100000)
    (nextWithin : nextExp ≤ 100000)
    : (nextExp - exp).toNat
        = Standing.gained ⟨level.toInt, exp.toNat⟩ ⟨next.toInt, nextExp.toNat⟩
      ↔ (next = level ∧ exp ≤ nextExp) ∨ (next < level ∧ nextExp = exp) := by
  have le : exp.toNat ≤ 100000 := UInt32.le_iff_toNat_le.mp within
  have nextLe : nextExp.toNat ≤ 100000 := UInt32.le_iff_toNat_le.mp nextWithin
  have wraps : (exp.toNat ≤ nextExp.toNat ∧ (nextExp - exp).toNat = nextExp.toNat - exp.toNat)
      ∨ (nextExp.toNat < exp.toNat
        ∧ (nextExp - exp).toNat = 2 ^ 32 + nextExp.toNat - exp.toNat) := by
    rw [UInt32.toNat_sub]
    omega
  simp only [Standing.gained, Standing.total, Standing.perLevel, ← Int32.toInt_inj,
    Int32.lt_iff_toInt_lt, UInt32.le_iff_toNat_le, ← UInt32.toNat_inj]
  generalize (nextExp - exp).toNat = difference at wraps ⊢
  rcases Int.lt_trichotomy level.toInt next.toInt with up | same | down
  · omega
  · omega
  · omega

/-- One operation tells the gain exactly where it gains no level. -/
theorem tellsGain_iff (scale : p.OnScale) {op : ExpOp} (within : op.OnScale)
    : p.TellsGain zone op ↔ p.GainsNoLevel op := by
  cases op with
  | player profile => exact iff_of_true (fun _ emitted => absurd emitted List.not_mem_nil) trivial
  | setLastKill name level =>
      exact iff_of_true (fun _ emitted => absurd emitted List.not_mem_nil) trivial
  | updateExp out =>
      refine iff_of_true (fun increment emitted => ?_) trivial
      cases out with
      | none => exact absurd emitted List.not_mem_nil
      | some out =>
          have real := scale.realExp out.exp
          have level : (p.step zone (.updateExp (some out))).standing
              = ⟨p.standing.level, out.exp.toNat⟩ := by
            simp only [PlayerExp.step, run, updateExp, real]
            split
            · rfl
            · split <;> rfl
          obtain rfl := eq_of_mem_updateExp scale emitted
          have same : Standing.gained p.standing ⟨p.standing.level, out.exp.toNat⟩
              = out.exp.toNat - p.currentExp.toNat := Standing.gained_sameLevel rfl
          rw [level, same]
          exact ⟨rfl, by simp only; omega⟩
  | updateLevel out =>
      cases out with
      | none => exact iff_of_true (fun _ emitted => absurd emitted List.not_mem_nil) trivial
      | some out =>
          have nextWithin := within out rfl
          have differs := @sub_eq_gained_iff p.level out.level.toInt32 _ _ scale.exp nextWithin
          refine Iff.trans ⟨fun tells => ?_, fun right increment emitted => ?_⟩ differs
          · exact Int.ofNat.inj (tells _ (mem_updateLevel.mpr rfl)).1
          · obtain rfl := mem_updateLevel.mp emitted
            have bounded : (out.exp - p.currentExp).toNat ≤ 100000 + out.exp.toNat := by
              rcases differs.mp right with ⟨_, more⟩ | ⟨_, same⟩
              · rw [UInt32.toNat_sub_of_le _ _ more]
                omega
              · rw [same, UInt32.sub_self]
                exact Nat.zero_le _
            exact ⟨congrArg Int.ofNat right, Int.ofNat_le.mpr bounded⟩

/-- The increments of a run on the scale of a level are what the player gains exactly where none
of its level updates is a level gained.
-/
theorem tell_gains_iff (zone : String) (scale : p.OnScale) {ops : List ExpOp}
    (within : ∀ op ∈ ops, op.OnScale)
    : Machine.Permits (step zone) (TellsGain zone) p ops
      ↔ Machine.Permits (step zone) GainsNoLevel p ops := by
  induction ops generalizing p with
  | nil => exact Iff.rfl
  | cons op rest ih =>
      obtain ⟨first, others⟩ := List.forall_mem_cons.mp within
      exact and_congr (tellsGain_iff scale first) (ih (scale.step first) others)

theorem tell_gains_kill
    : Machine.Permits (step "Qeynos Hills") (TellsGain "Qeynos Hills") reset
        [.player ⟨10, 40000⟩, .setLastKill "a gnoll" 9, .updateExp (some ⟨41500, 2⟩),
          .updateLevel (some ⟨10, 42000⟩)] := by
  refine (tell_gains_iff "Qeynos Hills" onScale_reset ?_).mpr
    ⟨trivial, trivial, trivial, .inl ⟨rfl, by decide⟩, trivial⟩
  simp [ExpOp.OnScale]

/-- A level-up from 90000 to 500 of the next level is told as a gain of 4294877796, not 10500. -/
theorem not_tell_gains
    : ¬ ∀ ops : List ExpOp, (∀ op ∈ ops, op.OnScale)
        → Machine.Permits (step "Qeynos Hills") (TellsGain "Qeynos Hills") reset ops := by
  intro all
  have told := (all [.player ⟨10, 90000⟩, .updateLevel (some ⟨11, 500⟩)]
    (by simp [ExpOp.OnScale])).2.1 4294877796 (by decide)
  exact absurd told.1 (by decide)

end PlayerExp

end Scry
