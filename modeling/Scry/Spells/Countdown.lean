import Scry.Spells.BuffList
import Scry.Spells.SpellSession

/-! The countdown sweep, loop by loop. Each loop erases from the list that it walks through, and
the iterator stays where it is when an item goes; what the sweep does to an item does not depend
on the items before it.
-/

namespace Scry

open SpellShell (sweep)

open SpellSession (items_setItems)

deriving instance DecidableEq for SpellSignal

/-- The shell with what it has signalled, in order, and the items that it was signalled about. -/
structure ToldShell where
  shell : SpellShell
  signals : List (SpellSignal × SpellItem)
  deriving DecidableEq

namespace ToldShell

/-- A buff that ends is forgotten as the player's last spell; an effect is not. -/
def forget (kind : SpellKind) (spell : SpellItem) (s : SpellShell) : SpellShell :=
  if kind = .buffs ∧ s.lastPlayerSpell = some spell.address then { s with lastPlayerSpell := none }
  else s

/-- A loop of `timeout` over one of the lists; `it` is where its iterator stands. -/
def sweepLoop (kind : SpellKind) (changed deleted : SpellSignal) (w : SpellWorld) (it : Nat)
    (t : ToldShell)
    : ToldShell :=
  let items := t.shell.items kind
  if inside : it < items.length then
    let spell := items[it]
    if spell.isPermanent then sweepLoop kind changed deleted w (it + 1) t
    else
      let d := spell.duration - w.spellTimer
      if d > -6 then
        let spell := { spell with duration := d }
        sweepLoop kind changed deleted w (it + 1)
          ⟨t.shell.setItems kind (items.set it spell), t.signals ++ [(changed, spell)]⟩
      else
        sweepLoop kind changed deleted w it
          ⟨(forget kind spell t.shell).setItems kind (items.eraseIdx it),
            t.signals ++ [(deleted, spell)]⟩
  else t
termination_by (t.shell.items kind).length - it
decreasing_by
  · exact Nat.sub_succ_lt_self _ _ inside
  · rw [items_setItems, List.length_set]
    exact Nat.sub_succ_lt_self _ _ inside
  · rw [items_setItems, List.length_eraseIdx_of_lt inside]
    exact Nat.sub_lt_sub_right (Nat.le_sub_one_of_lt inside)
      (Nat.sub_one_lt_of_lt inside)

/-- The loop over `m_spellList`. -/
def sweepSpells (w : SpellWorld) (t : ToldShell) : ToldShell :=
  sweepLoop .buffs .changeSpell .delSpell w 0 t

/-- The loop over `m_targetEffects`. -/
def sweepEffects (w : SpellWorld) (t : ToldShell) : ToldShell :=
  sweepLoop .effects .changeEffect .delEffect w 0 t

/-- `timeout`. -/
def timeout (w : SpellWorld) (t : ToldShell) : ToldShell :=
  let t := sweepEffects w (sweepSpells w t)
  if t.shell.spellList = [] ∧ t.shell.targetEffects = [] then ⟨t.shell.stop, t.signals⟩ else t

-----------------------------------------------------------------------------------------
-- One loop
-----------------------------------------------------------------------------------------

variable {kind : SpellKind} {changed deleted : SpellSignal} {w : SpellWorld} {t : ToldShell}
  {s : SpellShell}

/-- An item that the sweep ends. -/
def ends (w : SpellWorld) (i : SpellItem) : Bool := (sweep w i).isNone

/-- What a loop signals of an item. -/
def notice (changed deleted : SpellSignal) (w : SpellWorld) (i : SpellItem)
    : Option (SpellSignal × SpellItem) :=
  if i.isPermanent then none
  else
    match sweep w i with
    | some j => some (changed, j)
    | none => some (deleted, i)

/-- The items of a list that end are forgotten one after another. -/
def forgetAll (kind : SpellKind) (w : SpellWorld) (items : List SpellItem) (s : SpellShell)
    : SpellShell :=
  (items.filter (ends w)).foldl (fun s i => forget kind i s) s

theorem forget_setItems (spell : SpellItem) (items : List SpellItem)
    : forget kind spell (s.setItems kind items) = (forget kind spell s).setItems kind items := by
  have last : (s.setItems kind items).lastPlayerSpell = s.lastPlayerSpell := by cases kind <;> rfl
  rw [forget, forget, last]
  split_ifs
  · cases kind <;> rfl
  · rfl

/-- By induction on the items that are looked through. -/
theorem forgetAll_setItems (rest items : List SpellItem)
    : forgetAll kind w rest (s.setItems kind items)
      = (forgetAll kind w rest s).setItems kind items := by
  rw [forgetAll, forgetAll]
  induction rest.filter (ends w) generalizing s with
  | nil => rfl
  | cons i rest ih => rw [List.foldl_cons, List.foldl_cons, forget_setItems, ih]

theorem forgetAll_kept {i : SpellItem} (kept : ends w i = false) (rest : List SpellItem)
    : forgetAll kind w (i :: rest) s = forgetAll kind w rest s := by
  rw [forgetAll, forgetAll, List.filter_cons_of_neg (by rw [kept]; decide)]

/-- A loop that has been through a part of its list makes of the rest what the sweep makes of each
item, and signals once for each item that it touches. By induction on the rest.
-/
theorem sweepLoop_eq (kind : SpellKind) (changed deleted : SpellSignal) (w : SpellWorld)
    (t : ToldShell) (done rest : List SpellItem) (there : t.shell.items kind = done ++ rest)
    : sweepLoop kind changed deleted w done.length t
      = ⟨(forgetAll kind w rest t.shell).setItems kind (done ++ rest.filterMap (sweep w)),
          t.signals ++ rest.filterMap (notice changed deleted w)⟩ := by
  induction rest generalizing t done with
  | nil =>
      rw [List.append_nil] at there
      rw [sweepLoop, dif_neg (by rw [there]; exact Nat.lt_irrefl _), List.filterMap_nil,
        List.filterMap_nil, List.append_nil, List.append_nil, ← there]
      change t = ⟨t.shell.setItems kind (t.shell.items kind), t.signals⟩
      rw [SpellSession.setItems_items]
  | cons i rest ih =>
      have inside : done.length < (t.shell.items kind).length := by simp [there]
      have here : (t.shell.items kind)[done.length] = i := by simp [there]
      rw [sweepLoop, dif_pos inside]
      dsimp only
      rw [here]
      by_cases permanent : i.isPermanent = true
      · have stays : sweep w i = some i := by simp [sweep, permanent]
        have silent : notice changed deleted w i = none := by simp [notice, permanent]
        have next := ih t (done ++ [i]) (by simp [there])
        rw [List.length_append, List.length_singleton] at next
        rw [if_pos permanent, next, forgetAll_kept (by simp [ends, stays]),
          List.filterMap_cons_some stays, List.filterMap_cons_none silent, List.append_assoc]
        rfl
      · rw [if_neg permanent]
        by_cases runs : i.duration - w.spellTimer > -6
        · generalize hj : { i with duration := i.duration - w.spellTimer } = j
          have stays : sweep w i = some j := by
            rw [sweep, if_neg permanent, ← hj]
            exact if_pos runs
          have told : notice changed deleted w i = some (changed, j) := by
            simp [notice, permanent, stays]
          have set : (t.shell.items kind).set done.length j = done ++ j :: rest := by
            simp [there]
          have next := ih
            ⟨t.shell.setItems kind (done ++ j :: rest), t.signals ++ [(changed, j)]⟩
            (done ++ [j]) (by simp)
          rw [List.length_append, List.length_singleton] at next
          rw [if_pos runs, set, next, forgetAll_setItems, SpellSession.setItems_setItems,
            forgetAll_kept (by simp [ends, stays]), List.filterMap_cons_some stays,
            List.filterMap_cons_some told, List.append_assoc, List.append_assoc]
          rfl
        · have stops : sweep w i = none := by simp [sweep, permanent, runs]
          have told : notice changed deleted w i = some (deleted, i) := by
            simp [notice, permanent, stops]
          have erased : (t.shell.items kind).eraseIdx done.length = done ++ rest := by
            rw [there, List.eraseIdx_append_of_length_le (Nat.le_refl _), Nat.sub_self]
            rfl
          have next := ih
            ⟨(forget kind i t.shell).setItems kind (done ++ rest),
              t.signals ++ [(deleted, i)]⟩
            done (by simp)
          have forgotten : forgetAll kind w (i :: rest) t.shell
              = forgetAll kind w rest (forget kind i t.shell) := by
            rw [forgetAll, List.filter_cons_of_pos (by simp [ends, stops])]
            rfl
          rw [if_neg runs, erased, next, forgetAll_setItems, SpellSession.setItems_setItems,
            forgotten, List.filterMap_cons_none stops, List.filterMap_cons_some told,
            List.append_assoc]
          rfl

-----------------------------------------------------------------------------------------
-- The sweep
-----------------------------------------------------------------------------------------

theorem forgetAll_effects (items : List SpellItem) : forgetAll .effects w items s = s := by
  have none : (fun (s : SpellShell) (i : SpellItem) => forget .effects i s) = fun s _ => s := by
    funext s i
    exact if_neg (by simp)
  rw [forgetAll, none]
  exact List.foldl_fixed _

/-- Whether the player's last spell is one of the items that end. -/
def endsLast (w : SpellWorld) (s : SpellShell) (items : List SpellItem) : Bool :=
  items.any fun i => ends w i && s.lastPlayerSpell = some i.address

/-- By induction on the items: once it is forgotten there is nothing more to forget. -/
theorem forgetAll_buffs (items : List SpellItem)
    : forgetAll .buffs w items s
      = { s with
          lastPlayerSpell := if endsLast w s items then none else s.lastPlayerSpell } := by
  induction items generalizing s with
  | nil => rfl
  | cons i rest ih =>
      cases stops : ends w i with
      | false =>
          rw [forgetAll_kept stops, ih, endsLast, endsLast, List.any_cons, stops]
          rfl
      | true =>
          have first : forgetAll .buffs w (i :: rest) s
              = forgetAll .buffs w rest (forget .buffs i s) := by
            rw [forgetAll, List.filter_cons_of_pos stops]
            rfl
          rw [first, ih, endsLast, endsLast, List.any_cons, stops, Bool.true_and]
          by_cases last : s.lastPlayerSpell = some i.address
          · have forgotten : forget .buffs i s = { s with lastPlayerSpell := none } :=
              if_pos ⟨rfl, last⟩
            rw [forgotten, decide_eq_true last, Bool.true_or, if_pos rfl, ite_self]
          · have kept : forget .buffs i s = s := if_neg fun both => last both.2
            rw [kept, decide_eq_false last, Bool.false_or]

/-- The first loop. -/
theorem sweepSpells_eq (w : SpellWorld) (t : ToldShell)
    : sweepSpells w t
      = ⟨{ t.shell with
            lastPlayerSpell :=
              if endsLast w t.shell t.shell.spellList then none else t.shell.lastPlayerSpell
            spellList := t.shell.spellList.filterMap (sweep w) },
          t.signals ++ t.shell.spellList.filterMap (notice .changeSpell .delSpell w)⟩ := by
  have whole := sweepLoop_eq .buffs .changeSpell .delSpell w t [] t.shell.spellList rfl
  rw [forgetAll_buffs] at whole
  exact whole

/-- The second loop. -/
theorem sweepEffects_eq (w : SpellWorld) (t : ToldShell)
    : sweepEffects w t
      = ⟨{ t.shell with targetEffects := t.shell.targetEffects.filterMap (sweep w) },
          t.signals ++ t.shell.targetEffects.filterMap (notice .changeEffect .delEffect w)⟩ := by
  have whole := sweepLoop_eq .effects .changeEffect .delEffect w t [] t.shell.targetEffects rfl
  rw [forgetAll_effects] at whole
  exact whole

/-- What the sweep leaves, before the timer is looked at. -/
def swept (w : SpellWorld) (s : SpellShell) : SpellShell :=
  { s with
    lastPlayerSpell := if endsLast w s s.spellList then none else s.lastPlayerSpell
    spellList := s.spellList.filterMap (sweep w)
    targetEffects := s.targetEffects.filterMap (sweep w) }

theorem timeout_eq (w : SpellWorld) (t : ToldShell)
    : timeout w t
      = ⟨(swept w t.shell).rest,
          t.signals ++ t.shell.spellList.filterMap (notice .changeSpell .delSpell w)
            ++ t.shell.targetEffects.filterMap (notice .changeEffect .delEffect w)⟩ := by
  rw [timeout, sweepSpells_eq, sweepEffects_eq, SpellShell.rest]
  change (if (swept w t.shell).spellList = [] ∧ (swept w t.shell).targetEffects = [] then
    ToldShell.mk (swept w t.shell).stop _ else ToldShell.mk (swept w t.shell) _) = _
  by_cases empty : (swept w t.shell).spellList = [] ∧ (swept w t.shell).targetEffects = []
  · rw [if_pos empty, if_pos empty]
  · rw [if_neg empty, if_neg empty]

/-- The loops are the sweep of the shell. -/
theorem timeout_shell (w : SpellWorld) (t : ToldShell)
    : (timeout w t).shell = t.shell.timeout w := by
  rw [timeout_eq, SpellShell.timeout, SpellShell.rest, swept]
  by_cases last : endsLast w t.shell t.shell.spellList = true
  · have finished : (t.shell.spellList.any fun i =>
        (sweep w i).isNone && decide (t.shell.lastPlayerSpell = some i.address)) = true := last
    simp only [last, finished, if_true]
  · have going : ¬ (t.shell.spellList.any fun i =>
        (sweep w i).isNone && decide (t.shell.lastPlayerSpell = some i.address)) = true := last
    simp only [last, going, if_false, Bool.false_eq_true]

/-- What the sweep leaves of a shell, and what it signals. -/
structure CountedDown (w : SpellWorld) (before : SpellShell) (after : ToldShell) : Prop where
  spells : after.shell.spellList = before.spellList.filterMap (sweep w)
  effects : after.shell.targetEffects = before.targetEffects.filterMap (sweep w)
  permanent
    : after.shell.spellList.filter (·.isPermanent) = before.spellList.filter (·.isPermanent)
      ∧ after.shell.targetEffects.filter (·.isPermanent)
        = before.targetEffects.filter (·.isPermanent)
  signals
    : after.signals
      = before.spellList.filterMap (notice .changeSpell .delSpell w)
        ++ before.targetEffects.filterMap (notice .changeEffect .delEffect w)
  last
    : after.shell.lastPlayerSpell
      = if endsLast w before (before.spellList ++ before.targetEffects) then none
        else before.lastPlayerSpell
  timer
    : after.shell.timerActive
      = (before.timerActive
        && !(after.shell.spellList.isEmpty && after.shell.targetEffects.isEmpty))

/-- The permanent items pass the sweep, by induction on the list. -/
theorem filter_permanent (w : SpellWorld) (items : List SpellItem)
    : (items.filterMap (sweep w)).filter (·.isPermanent) = items.filter (·.isPermanent) := by
  induction items with
  | nil => rfl
  | cons i rest ih =>
      by_cases permanent : i.isPermanent = true
      · have stays : sweep w i = some i := by rw [sweep, if_pos permanent]
        rw [List.filterMap_cons_some stays, List.filter_cons_of_pos permanent,
          List.filter_cons_of_pos permanent, ih]
      · rw [List.filter_cons_of_neg permanent, ← ih]
        cases outcome : sweep w i with
        | none => rw [List.filterMap_cons_none outcome]
        | some j =>
            rw [List.filterMap_cons_some outcome, List.filter_cons_of_neg]
            rw [sweep, if_neg permanent] at outcome
            dsimp only at outcome
            split_ifs at outcome
            rw [← Option.some.inj outcome]
            exact permanent

/-- The sweep counts every item down by itself. -/
theorem timeout_countsDown (w : SpellWorld) (s : SpellShell)
    (noEffect : ∀ i ∈ s.targetEffects, s.lastPlayerSpell ≠ some i.address)
    : CountedDown w s (timeout w ⟨s, []⟩) := by
  have spared : endsLast w s s.targetEffects = false := by
    rw [endsLast, List.any_eq_false]
    intro i member
    simp [noEffect i member]
  have both : endsLast w s (s.spellList ++ s.targetEffects) = endsLast w s s.spellList := by
    rw [endsLast, List.any_append]
    change (endsLast w s s.spellList || endsLast w s s.targetEffects) = _
    rw [spared, Bool.or_false]
  rw [timeout_eq, List.nil_append]
  have spells : (swept w s).rest.spellList = s.spellList.filterMap (sweep w) := by
    rw [SpellShell.rest]
    split_ifs <;> rfl
  have effects : (swept w s).rest.targetEffects = s.targetEffects.filterMap (sweep w) := by
    rw [SpellShell.rest]
    split_ifs <;> rfl
  refine ⟨spells, effects, ⟨?_, ?_⟩, rfl, ?_, ?_⟩
  · rw [spells, filter_permanent]
  · rw [effects, filter_permanent]
  · rw [both, SpellShell.rest]
    by_cases empty : (swept w s).spellList = [] ∧ (swept w s).targetEffects = []
    · rw [if_pos empty]
      rfl
    · rw [if_neg empty]
      rfl
  · rw [spells, effects, SpellShell.rest]
    change SpellShell.timerActive (if s.spellList.filterMap (sweep w) = []
      ∧ s.targetEffects.filterMap (sweep w) = [] then _ else _) = _
    by_cases empty : s.spellList.filterMap (sweep w) = []
        ∧ s.targetEffects.filterMap (sweep w) = []
    · rw [if_pos empty, empty.1, empty.2, List.isEmpty_nil, Bool.and_self, Bool.not_true,
        Bool.and_false]
      rfl
    · have filled : ((s.spellList.filterMap (sweep w)).isEmpty
          && (s.targetEffects.filterMap (sweep w)).isEmpty) = false := by
        rw [← Bool.not_eq_true, Bool.and_eq_true, List.isEmpty_iff, List.isEmpty_iff]
        exact empty
      rw [if_neg empty, filled, Bool.not_false, Bool.and_true]
      rfl

/-- In every shell that a run reaches no last spell is remembered. -/
theorem noEffect_of_wellFormed (wf : s.WellFormed)
    : ∀ i ∈ s.targetEffects, s.lastPlayerSpell ≠ some i.address := by
  intro i _
  rw [wf.noLast]
  exact nofun

/-- Where the subtraction stays in its range, what is left of a duration is the difference. -/
theorem sweep_toInt {i j : SpellItem} (running : i.isPermanent = false)
    (positive : 0 < w.spellTimer.toInt)
    (inRange : -2 ^ 31 ≤ i.duration.toInt - w.spellTimer.toInt)
    : sweep w i = some j
      ↔ -6 < i.duration.toInt - w.spellTimer.toInt
        ∧ j = { i with duration := Int32.ofInt (i.duration.toInt - w.spellTimer.toInt) } := by
  have left : (i.duration - w.spellTimer).toInt = i.duration.toInt - w.spellTimer.toInt := by
    have upper := i.duration.toInt_lt
    rw [Int32.toInt_sub, Int.bmod_eq_of_le]
    all_goals omega
  have back : Int32.ofInt (i.duration.toInt - w.spellTimer.toInt) = i.duration - w.spellTimer := by
    rw [← left, Int32.ofInt_toInt]
  have limit : i.duration - w.spellTimer > -6 ↔ -6 < (i.duration - w.spellTimer).toInt :=
    Int32.lt_iff_toInt_lt
  have permanent : ¬ i.isPermanent = true := by simp [running]
  rw [sweep, if_neg permanent, back, ← left, ← limit]
  dsimp only
  by_cases runs : i.duration - w.spellTimer > -6
  · rw [if_pos runs, Option.some.injEq, and_iff_right runs]
    exact eq_comm
  · rw [if_neg runs]
    exact iff_of_false (fun same => Option.some_ne_none _ same.symm) fun both => runs both.1

/-- Four items of which one is permanent, one runs on and two end, one of them the player's last
spell.
-/
theorem timeout_countsDown_mixed
    : let w := SpellShell.plainWorld 1
      let s : SpellShell :=
        ⟨[⟨1, 7, "", -1, 0, "", 0, "", -1, false, true, 0, true⟩, { address := 2, duration := 18 },
            { address := 3 }],
          [{ address := 4, duration := -1 }], some 3, true, 5⟩
      let t := timeout w ⟨s, []⟩
      t.shell.spellList.map (·.address) = [1, 2]
        ∧ t.signals.map (·.1) = [.changeSpell, .delSpell, .delEffect]
        ∧ t.shell.lastPlayerSpell = none ∧ CountedDown w s t := by
  intro w s t
  have counted : CountedDown w s t := timeout_countsDown w s (by decide)
  refine ⟨?_, ?_, ?_, counted⟩
  · rw [counted.spells]
    decide
  · rw [counted.signals]
    decide
  · rw [counted.last]
    decide

end ToldShell
end Scry
