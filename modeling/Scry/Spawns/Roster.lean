import Mathlib.Data.List.Perm.Subperm
import Scry.Spawns.GroupPanel

/-! A list of the members as an exact difference: who leaves the roster, who joins it, what is
signalled of them, and that the same list once more does nothing.
-/

namespace Scry

open FirstMatch

open GroupSession (incomingNames isAbsent)

/-- The signals `added` and `removed`. -/
inductive GroupSignal
  | added (name : String) (spawn : Option SpawnPtr)
  | removed (name : String) (spawn : Option SpawnPtr)
  deriving DecidableEq

namespace GroupSignal

/-- The name that a signal tells the removal of. -/
def departed? : GroupSignal → Option String
  | .removed name _ => some name
  | .added _ _ => none

/-- The name that a signal tells the arrival of. -/
def arrived? : GroupSignal → Option String
  | .removed _ _ => none
  | .added name _ => some name

end GroupSignal

/-- The group manager with what it has signalled, in order. -/
structure ToldGroup where
  group : GroupMgr
  signals : List GroupSignal
  deriving DecidableEq

namespace ToldGroup

/-- The first loop of `groupMemberList` at one slot. -/
def dropAbsent (incoming : List String) (t : ToldGroup) (i : Nat) : ToldGroup :=
  match t.group.members[i]? with
  | none => t
  | some m =>
      if isAbsent incoming m then
        ⟨t.group.dropAbsent incoming i, t.signals ++ [.removed m.name m.spawn]⟩
      else t

/-- The loop that puts a name into the first empty slot. -/
def place (t : ToldGroup) (sh : SpawnShell) (walk : List Nat) (name : String) : ToldGroup :=
  if t.group.members.any fun m => !m.isNamed then
    ⟨t.group.place sh walk name,
      t.signals ++ [.added name (sh.findPlayerByDisplayName walk name)]⟩
  else t

/-- The second loop of `groupMemberList`. -/
def placeIncoming (sh : SpawnShell) (walk : List Nat) (existing : List String)
    : List String → ToldGroup → ToldGroup
  | [], t => t
  | name :: rest, t =>
      placeIncoming sh walk existing rest
        (if existing.contains name then t else t.place sh walk name)

/-- `groupMemberList`, after decoding. -/
def groupMemberList (t : ToldGroup) (sh : SpawnShell) (walk : List Nat) (memberCount : Nat)
    (names : List String)
    : ToldGroup :=
  if memberCount = 0 ∨ maxGroupMembers < memberCount then t
  else
    let incoming := incomingNames sh names
    let kept := (List.range maxGroupPeers).foldl (dropAbsent incoming) t
    let existing := (kept.group.members.filter (·.isNamed)).map (·.name)
    placeIncoming sh walk existing incoming kept

-----------------------------------------------------------------------------------------
-- The group underneath
-----------------------------------------------------------------------------------------

variable {t : ToldGroup} {sh : SpawnShell} {walk : List Nat} {incoming : List String}

theorem dropAbsent_group (incoming : List String) (t : ToldGroup) (i : Nat)
    : (t.dropAbsent incoming i).group = t.group.dropAbsent incoming i := by
  rw [dropAbsent]
  cases here : t.group.members[i]? with
  | none => simp only [GroupMgr.dropAbsent, here]
  | some m =>
      dsimp only
      by_cases absent : isAbsent incoming m = true
      · rw [if_pos absent]
      · have kept : ¬ (m.isNamed && !incoming.contains m.name) = true := absent
        rw [if_neg absent, GroupMgr.dropAbsent]
        simp only [here, if_neg kept]

theorem dropAll_group (incoming : List String) (visits : List Nat)
    : (visits.foldl (dropAbsent incoming) t).group
      = visits.foldl (GroupMgr.dropAbsent incoming) t.group := by
  induction visits generalizing t with
  | nil => rfl
  | cons i rest ih => rw [List.foldl_cons, ih, dropAbsent_group, List.foldl_cons]

/-- Where no slot is empty, a name is not put anywhere. -/
theorem place_of_full {g : GroupMgr} (full : ∀ m ∈ g.members, (!m.isNamed) = false)
    (name : String)
    : g.place sh walk name = g := by
  rw [GroupMgr.place]
  simp only [updateFirst_eq_none.mpr full]

theorem place_group (t : ToldGroup) (name : String)
    : (t.place sh walk name).group = t.group.place sh walk name := by
  rw [place]
  split_ifs with free
  · rfl
  · symm
    apply place_of_full
    intro m member
    by_contra unnamed
    exact free (List.any_eq_true.mpr ⟨m, member, Bool.eq_true_of_not_eq_false unnamed⟩)

theorem placeIncoming_group (existing incoming : List String)
    : (placeIncoming sh walk existing incoming t).group
      = GroupMgr.placeIncoming sh walk existing incoming t.group := by
  induction incoming generalizing t with
  | nil => rfl
  | cons name rest ih =>
      rw [placeIncoming, ih, GroupMgr.placeIncoming]
      split_ifs
      · rfl
      · rw [place_group]

/-- What the list does to the group does not depend on the signals. -/
theorem groupMemberList_group (memberCount : Nat) (names : List String)
    : (t.groupMemberList sh walk memberCount names).group
      = t.group.groupMemberList sh walk memberCount names := by
  rw [groupMemberList, GroupMgr.groupMemberList]
  split_ifs
  · rfl
  · simp only [placeIncoming_group, dropAll_group]
    rfl

end ToldGroup

-----------------------------------------------------------------------------------------
-- The names in the slots
-----------------------------------------------------------------------------------------

/-- The names of the peers, in the order of their slots. -/
def GroupMgr.names (g : GroupMgr) : List String := (g.members.filter (·.isNamed)).map (·.name)

namespace Roster

variable {t : ToldGroup} {g : GroupMgr} {sh : SpawnShell} {walk : List Nat}
  {incoming : List String}

/-- The names are those of all slots without the empty ones. -/
theorem names_eq (g : GroupMgr) : g.names = (g.members.map (·.name)).filter (· != "") := by
  rw [GroupMgr.names, List.filter_map]
  rfl

/-- What the first loop makes of a slot. -/
def vacated (incoming : List String) (m : GroupMember) : GroupMember :=
  if isAbsent incoming m then .empty else m

/-- The slot that a name gets. -/
def seat (sh : SpawnShell) (walk : List Nat) (name : String) : GroupMember :=
  ⟨name, sh.findPlayerByDisplayName walk name⟩

/-- The signal of a slot that is emptied. -/
def leave (m : GroupMember) : GroupSignal := .removed m.name m.spawn

/-- The signal of a slot that is taken. -/
def join (m : GroupMember) : GroupSignal := .added m.name m.spawn

/-- The first loop at one slot of the array. -/
theorem dropAbsent_at (incoming : List String) {front back : List GroupMember} {m : GroupMember}
    (whole : t.group.members = front ++ m :: back)
    : (t.dropAbsent incoming front.length).group.members = front ++ vacated incoming m :: back
      ∧ (t.dropAbsent incoming front.length).signals
          = t.signals ++ ([m].filter (isAbsent incoming)).map leave := by
  have here : t.group.members[front.length]? = some m := by simp [whole]
  rw [ToldGroup.dropAbsent, here]
  dsimp only
  by_cases absent : isAbsent incoming m = true
  · have gone : (t.group.dropAbsent incoming front.length).members
        = t.group.members.set front.length .empty := by
      rw [GroupMgr.dropAbsent, here]
      exact congrArg GroupMgr.members (if_pos absent)
    rw [if_pos absent, gone, vacated, if_pos absent, whole, List.filter_cons_of_pos absent]
    simp [leave]
  · rw [if_neg absent, vacated, if_neg absent, List.filter_cons_of_neg absent]
    simp [whole]

/-- The first loop up to a slot, by induction on the slots that it has passed. -/
theorem dropAll_take (incoming : List String) (n : Nat) (inside : n ≤ t.group.members.length)
    : ((List.range n).foldl (ToldGroup.dropAbsent incoming) t).group.members
        = (t.group.members.take n).map (vacated incoming) ++ t.group.members.drop n
      ∧ ((List.range n).foldl (ToldGroup.dropAbsent incoming) t).signals
        = t.signals ++ ((t.group.members.take n).filter (isAbsent incoming)).map leave := by
  induction n with
  | zero => simp
  | succ n ih =>
      obtain ⟨members, signals⟩ := ih (Nat.le_of_succ_le inside)
      have next : t.group.members.drop n = t.group.members[n] :: t.group.members.drop (n + 1) :=
        List.drop_eq_getElem_cons inside
      have passed : ((t.group.members.take n).map (vacated incoming)).length = n := by
        simp only [List.length_map, List.length_take]
        omega
      rw [next] at members
      have step := dropAbsent_at incoming members
      rw [passed] at step
      rw [List.range_succ, List.foldl_append, List.foldl_cons, List.foldl_nil, step.1, step.2,
        signals, List.take_add_one, List.getElem?_eq_getElem inside]
      simp only [Option.toList_some, List.map_append, List.filter_append, List.map_cons,
        List.map_nil, List.append_assoc, List.cons_append, List.nil_append, and_self]

/-- The first loop. -/
theorem dropAll_eq (incoming : List String) (slots : t.group.members.length = maxGroupPeers)
    : ((List.range maxGroupPeers).foldl (ToldGroup.dropAbsent incoming) t).group.members
        = t.group.members.map (vacated incoming)
      ∧ ((List.range maxGroupPeers).foldl (ToldGroup.dropAbsent incoming) t).signals
        = t.signals ++ (t.group.members.filter (isAbsent incoming)).map leave := by
  have whole := dropAll_take incoming maxGroupPeers (Nat.le_of_eq slots.symm)
  rwa [← slots, List.take_length, List.drop_length, List.append_nil, slots] at whole

/-- One name of the second loop takes the first empty slot. -/
theorem place_eq (t : ToldGroup) (sh : SpawnShell) (walk : List Nat) (name : String)
    : (t.place sh walk name).group.members
        = fill (fun m => !m.isNamed) [seat sh walk name] t.group.members
      ∧ (t.place sh walk name).signals
        = t.signals
          ++ ([seat sh walk name].take (t.group.members.countP fun m => !m.isNamed)).map join := by
  rw [ToldGroup.place_group, ToldGroup.place, fill, GroupMgr.place]
  cases found : updateFirst (fun m : GroupMember => !m.isNamed)
      (fun _ => ⟨name, sh.findPlayerByDisplayName walk name⟩) t.group.members with
  | none =>
      have full := updateFirst_eq_none.mp found
      have closed : ¬ (t.group.members.any fun m => !m.isNamed) = true := by
        rw [List.any_eq_true]
        rintro ⟨m, member, unnamed⟩
        exact Bool.noConfusion (unnamed.symm.trans (full m member))
      have none : (t.group.members.countP fun m => !m.isNamed) = 0 :=
        List.countP_eq_zero.mpr fun m member => by simp [full m member]
      rw [if_neg closed, none, seat, found]
      simp [fill]
  | some slots =>
      obtain ⟨old, after⟩ := slots
      obtain ⟨front, back, whole, -, vacant, -⟩ := updateFirst_split found
      have member : old ∈ t.group.members := by simp [whole]
      have free : (t.group.members.any fun m => !m.isNamed) = true :=
        List.any_eq_true.mpr ⟨old, member, vacant⟩
      have positive : 0 < t.group.members.countP fun m => !m.isNamed :=
        List.countP_pos_iff.mpr ⟨old, member, vacant⟩
      obtain ⟨more, count⟩ := Nat.exists_eq_add_of_lt positive
      rw [if_pos free, count, seat, found]
      simp [fill, join]

/-- The names of a list that are in no slot yet. -/
def newcomers (existing incoming : List String) : List String :=
  incoming.filter (!existing.contains ·)

theorem isNamed_seat (sh : SpawnShell) (walk : List Nat) {name : String} (named : name ≠ "")
    : (seat sh walk name).isNamed = true :=
  bne_iff_ne.mpr named

/-- The second loop, by induction on the names. -/
theorem placeIncoming_eq (t : ToldGroup) (sh : SpawnShell) (walk : List Nat)
    (existing : List String) (named : ∀ name ∈ incoming, name ≠ "")
    : (ToldGroup.placeIncoming sh walk existing incoming t).group.members
        = fill (fun m => !m.isNamed) ((newcomers existing incoming).map (seat sh walk))
            t.group.members
      ∧ (ToldGroup.placeIncoming sh walk existing incoming t).signals
        = t.signals
          ++ (((newcomers existing incoming).map (seat sh walk)).take
              (t.group.members.countP fun m => !m.isNamed)).map join := by
  induction incoming generalizing t with
  | nil => simp [ToldGroup.placeIncoming, newcomers, fill]
  | cons name rest ih =>
      have others := fun n member => named n (List.mem_cons_of_mem _ member)
      rw [ToldGroup.placeIncoming]
      by_cases known : existing.contains name = true
      · have skipped : newcomers existing (name :: rest) = newcomers existing rest :=
          List.filter_cons_of_neg (by rw [known]; decide)
        rw [if_pos known, skipped]
        exact ih t others
      · have listed : newcomers existing (name :: rest) = name :: newcomers existing rest :=
          List.filter_cons_of_pos (by simpa using known)
        have isNamed := isNamed_seat sh walk (named name List.mem_cons_self)
        obtain ⟨members, signals⟩ := place_eq t sh walk name
        obtain ⟨later, told⟩ := ih (t.place sh walk name) others
        have fewer := @countP_fill_one _ (fun m : GroupMember => !m.isNamed) t.group.members
          (seat sh walk name) (by simp [isNamed])
        rw [if_neg known, listed, later, told, members, signals, fewer, List.map_cons, ← fill_cons]
        refine ⟨rfl, ?_⟩
        rw [List.append_assoc, ← List.map_append]
        congr 2
        cases t.group.members.countP fun m => !m.isNamed with
        | zero => rfl
        | succ n =>
            rw [List.take_succ_cons, List.take_succ_cons, List.take_nil]
            rfl

-----------------------------------------------------------------------------------------
-- The difference
-----------------------------------------------------------------------------------------

/-- The names that a roster keeps. -/
def survivors (incoming : List String) (g : GroupMgr) : List String :=
  g.names.filter incoming.contains

/-- The names that it loses. -/
def absentees (incoming : List String) (g : GroupMgr) : List String :=
  g.names.filter (!incoming.contains ·)

/-- The first loop keeps the names that are listed, by induction on the slots. -/
theorem names_vacated (members : List GroupMember)
    : ((members.map (vacated incoming)).filter (·.isNamed)).map (·.name)
      = ((members.filter (·.isNamed)).map (·.name)).filter incoming.contains := by
  induction members with
  | nil => rfl
  | cons m rest ih =>
      rw [List.map_cons, vacated]
      by_cases isNamed : m.isNamed = true
      · by_cases listed : incoming.contains m.name = true
        · have kept : ¬ isAbsent incoming m = true := by
            rw [isAbsent, listed, Bool.not_true, Bool.and_false]
            decide
          rw [if_neg kept, List.filter_cons_of_pos isNamed, List.filter_cons_of_pos isNamed,
            List.map_cons, List.map_cons, List.filter_cons_of_pos listed, ih]
        · have absent : isAbsent incoming m = true := by
            rw [isAbsent, isNamed, Bool.eq_false_iff.mpr listed]
            rfl
          rw [if_pos absent, List.filter_cons_of_neg (by decide), List.filter_cons_of_pos isNamed,
            List.map_cons, List.filter_cons_of_neg listed, ih]
      · have kept : ¬ isAbsent incoming m = true := by simp [isAbsent, isNamed]
        rw [if_neg kept, List.filter_cons_of_neg isNamed, List.filter_cons_of_neg isNamed, ih]

/-- The names that the first loop signals. -/
theorem names_absent (g : GroupMgr)
    : (g.members.filter (isAbsent incoming)).map (·.name) = absentees incoming g := by
  rw [absentees, GroupMgr.names, List.filter_map, List.filter_filter]
  congr 1
  refine List.filter_congr fun m _ => ?_
  rw [isAbsent, Bool.and_comm]
  rfl

theorem filterMap_departed (left joined : List GroupMember)
    : (left.map leave ++ joined.map join).filterMap GroupSignal.departed? = left.map (·.name) := by
  have one : GroupSignal.departed? ∘ leave = fun m : GroupMember => some m.name := rfl
  have other : GroupSignal.departed? ∘ join = fun _ : GroupMember => none := rfl
  rw [List.filterMap_append, List.filterMap_map, List.filterMap_map, one, other]
  simp

theorem filterMap_arrived (left joined : List GroupMember)
    : (left.map leave ++ joined.map join).filterMap GroupSignal.arrived? = joined.map (·.name) := by
  have one : GroupSignal.arrived? ∘ leave = fun _ : GroupMember => none := rfl
  have other : GroupSignal.arrived? ∘ join = fun m : GroupMember => some m.name := rfl
  rw [List.filterMap_append, List.filterMap_map, List.filterMap_map, one, other]
  simp

/-- A roster refreshed by the peers of a list: as many of them as there are slots, the ones that
were there in their slots, and one signal for every name that comes or goes.
-/
structure Refreshed (peers : List String) (before after : GroupMgr) (signals : List GroupSignal)
    : Prop where
  slots : after.members.length = maxGroupPeers
  distinct : after.names.Nodup
  listed : ∀ name ∈ after.names, name ∈ peers
  asMany : after.names.length = min maxGroupPeers peers.length
  complete : peers.length ≤ maxGroupPeers → ∀ name ∈ peers, name ∈ after.names
  stays
    : ∀ (i : Nat) (m : GroupMember), before.members[i]? = some m → m.name ∈ peers →
        after.members[i]? = some m
  departed
    : ∀ name, (signals.filterMap GroupSignal.departed?).count name
        = if name ∈ before.names ∧ name ∉ after.names then 1 else 0
  arrived
    : ∀ name, (signals.filterMap GroupSignal.arrived?).count name
        = if name ∈ after.names ∧ name ∉ before.names then 1 else 0

/-- The names after a list: the survivors, and those of the others that find a slot. -/
theorem groupMemberList_eq (sh : SpawnShell) (walk : List Nat)
    (slots : t.group.members.length = maxGroupPeers)
    {memberCount : Nat} (counted : ¬ (memberCount = 0 ∨ maxGroupMembers < memberCount))
    {names : List String} (peers : incomingNames sh names = incoming)
    : let kept := t.group.members.map (vacated incoming)
      let free := kept.countP fun m => !m.isNamed
      let others := newcomers (survivors incoming t.group) incoming
      (t.groupMemberList sh walk memberCount names).group.members
          = fill (fun m => !m.isNamed) (others.map (seat sh walk)) kept
        ∧ (t.groupMemberList sh walk memberCount names).signals
          = t.signals ++ ((t.group.members.filter (isAbsent incoming)).map leave
              ++ ((others.map (seat sh walk)).take free).map join) := by
  intro kept free others
  have named : ∀ name ∈ incoming, name ≠ "" := fun name member =>
    GroupWorld.incomingNames_named (peers ▸ member)
  rw [ToldGroup.groupMemberList, if_neg counted, peers]
  obtain ⟨members, signals⟩ := dropAll_eq incoming slots
  dsimp only
  rw [members, names_vacated]
  obtain ⟨placed, told⟩ := placeIncoming_eq
    ((List.range maxGroupPeers).foldl (ToldGroup.dropAbsent incoming) t) sh walk
    (survivors incoming t.group) named
  refine ⟨placed.trans ?_, told.trans ?_⟩
  · rw [members]
  · rw [signals, members, List.append_assoc]

/-- The names after a list: the survivors, and those of the others that find a slot. -/
theorem names_perm (sh : SpawnShell) (walk : List Nat) (kept : List GroupMember)
    {others : List String} (named : ∀ name ∈ others, name ≠ "")
    : (((fill (fun m => !m.isNamed) (others.map (seat sh walk)) kept).filter (·.isNamed)).map
        (·.name)).Perm
      ((kept.filter (·.isNamed)).map (·.name)
        ++ others.take (kept.countP fun m => !m.isNamed)) := by
  have taken : ∀ item ∈ others.map (seat sh walk), (!item.isNamed) = false := by
    intro item member
    obtain ⟨name, listed, rfl⟩ := List.mem_map.mp member
    rw [isNamed_seat sh walk (named name listed)]
    rfl
  have placed := (fill_perm kept taken).map (·.name)
  simp only [Bool.not_not, List.map_append] at placed
  have seats : ((others.map (seat sh walk)).take (kept.countP fun m => !m.isNamed)).map (·.name)
      = others.take (kept.countP fun m => !m.isNamed) := by
    rw [← List.map_take, List.map_map]
    exact List.map_id _
  rwa [seats] at placed

/-- A list refreshes a roster without doubles. -/
theorem refreshed (sh : SpawnShell) (walk : List Nat)
    (slots : t.group.members.length = maxGroupPeers)
    (distinct : t.group.names.Nodup) (quiet : t.signals = []) {memberCount : Nat}
    (counted : ¬ (memberCount = 0 ∨ maxGroupMembers < memberCount)) (names : List String)
    : Refreshed (incomingNames sh names) t.group
        (t.groupMemberList sh walk memberCount names).group
        (t.groupMemberList sh walk memberCount names).signals := by
  generalize peers : incomingNames sh names = incoming
  have named : ∀ name ∈ incoming, name ≠ "" := fun name member =>
    GroupWorld.incomingNames_named (peers ▸ member)
  have apart : incoming.Nodup := peers ▸ List.nodup_dedup _
  obtain ⟨members, signals⟩ := groupMemberList_eq sh walk slots counted peers
  generalize t.groupMemberList sh walk memberCount names = after at members signals ⊢
  rw [quiet, List.nil_append] at signals
  generalize hkept : t.group.members.map (vacated incoming) = kept at members signals
  generalize hothers : newcomers (survivors incoming t.group) incoming = others
    at members signals
  generalize hfree : (kept.countP fun m => !m.isNamed) = free at signals
  -- the names that are left, and those that are new
  have staying : (kept.filter (·.isNamed)).map (·.name) = survivors incoming t.group := by
    rw [← hkept]
    exact names_vacated t.group.members
  have newNamed : ∀ name ∈ others, name ≠ "" := by
    rw [← hothers]
    exact fun name member => named name (List.mem_of_mem_filter member)
  have mem_staying (name : String)
      : name ∈ survivors incoming t.group ↔ name ∈ t.group.names ∧ name ∈ incoming := by
    rw [survivors, List.mem_filter, List.contains_iff_mem]
  have mem_others (name : String) : name ∈ others ↔ name ∈ incoming ∧ name ∉ t.group.names := by
    rw [← hothers, newcomers, List.mem_filter, Bool.not_eq_true', ← Bool.not_eq_true,
      List.contains_iff_mem, mem_staying]
    tauto
  have stayingDistinct : (survivors incoming t.group).Nodup := distinct.filter _
  have othersDistinct : others.Nodup := hothers ▸ apart.filter _
  have perm : after.group.names.Perm (survivors incoming t.group ++ others.take free) := by
    have whole := names_perm sh walk kept newNamed
    rw [staying, hfree, ← members] at whole
    exact whole
  have whole : (survivors incoming t.group).length + others.length = incoming.length := by
    rw [← List.length_append]
    apply List.Perm.length_eq
    rw [List.perm_ext_iff_of_nodup _ apart]
    · intro name
      rw [List.mem_append, mem_staying, mem_others]
      tauto
    · refine stayingDistinct.append othersDistinct fun name one other => ?_
      exact ((mem_others name).mp other).2 ((mem_staying name).mp one).1
  have room : (survivors incoming t.group).length + free = maxGroupPeers := by
    have all := List.length_eq_countP_add_countP (fun m : GroupMember => m.isNamed) (l := kept)
    rw [← staying, List.length_map, ← List.countP_eq_length_filter, ← hfree, ← slots,
      ← List.length_map (vacated incoming), hkept, all]
    simp
  have mem_after (name : String)
      : name ∈ after.group.names
        ↔ (name ∈ t.group.names ∧ name ∈ incoming) ∨ name ∈ others.take free := by
    rw [perm.mem_iff, List.mem_append, mem_staying]
  have new {name : String} (listed : name ∈ others.take free)
      : name ∈ incoming ∧ name ∉ t.group.names :=
    (mem_others name).mp (List.mem_of_mem_take listed)
  refine ⟨?_, ?_, ?_, ?_, ?_, ?_, ?_, ?_⟩
  · rw [members, fill_length, ← hkept, List.length_map, slots]
  · rw [perm.nodup_iff]
    refine stayingDistinct.append (othersDistinct.sublist (List.take_sublist _ _)) ?_
    exact fun name one other => (new other).2 ((mem_staying name).mp one).1
  · intro name listed
    rcases (mem_after name).mp listed with ⟨_, member⟩ | member
    · exact member
    · exact (new member).1
  · rw [perm.length_eq, List.length_append, List.length_take]
    omega
  · intro few name member
    rw [mem_after, List.take_of_length_le (by omega), mem_others]
    tauto
  · intro i m here member
    rw [members]
    have isNamed : m.isNamed = true := bne_iff_ne.mpr (named m.name member)
    apply fill_getElem? _ (by rw [isNamed]; rfl)
    rw [← hkept, List.getElem?_map, here, Option.map_some, vacated, if_neg]
    simp [isAbsent, member]
  · intro name
    have leaving : (absentees incoming t.group).Nodup := distinct.filter _
    rw [signals, filterMap_departed, names_absent, leaving.count]
    refine if_congr ?_ rfl rfl
    rw [absentees, List.mem_filter, Bool.not_eq_true', ← Bool.not_eq_true, List.contains_iff_mem, mem_after]
    constructor
    · rintro ⟨old, unlisted⟩
      refine ⟨old, ?_⟩
      rintro (⟨_, listed⟩ | listed)
      · exact unlisted listed
      · exact unlisted (new listed).1
    · rintro ⟨old, gone⟩
      exact ⟨old, fun listed => gone (Or.inl ⟨old, listed⟩)⟩
  · intro name
    have seats : ((others.map (seat sh walk)).take free).map (·.name) = others.take free := by
      rw [← List.map_take, List.map_map]
      exact List.map_id _
    rw [signals, filterMap_arrived, seats,
      List.Nodup.count (othersDistinct.sublist (List.take_sublist _ _))]
    refine if_congr ?_ rfl rfl
    rw [mem_after]
    constructor
    · exact fun listed => ⟨Or.inr listed, (new listed).2⟩
    · rintro ⟨⟨old, _⟩ | listed, fresh⟩
      · exact absurd old fresh
      · exact listed

-----------------------------------------------------------------------------------------
-- The same list once more
-----------------------------------------------------------------------------------------

/-- The first loop finds nobody to drop, by induction on the slots that it visits. -/
theorem dropAll_of_listed
    (listed : ∀ m ∈ t.group.members, m.isNamed = true → m.name ∈ incoming) (visits : List Nat)
    : visits.foldl (ToldGroup.dropAbsent incoming) t = t := by
  induction visits with
  | nil => rfl
  | cons i rest ih =>
      have passes : t.dropAbsent incoming i = t := by
        rw [ToldGroup.dropAbsent]
        cases here : t.group.members[i]? with
        | none => rfl
        | some m =>
            refine if_neg fun absent => ?_
            obtain ⟨isNamed, unlisted⟩ := Bool.and_eq_true_iff.mp absent
            have member := listed m (List.mem_of_getElem? here) isNamed
            rw [List.contains_iff_mem.mpr member] at unlisted
            exact Bool.noConfusion unlisted
      rw [List.foldl_cons, passes, ih]

/-- The second loop finds nobody to seat, or no slot, by induction on the names. -/
theorem placeIncoming_of_seated {existing : List String}
    (seated
      : (∀ name ∈ incoming, name ∈ existing) ∨ ∀ m ∈ t.group.members, m.isNamed = true)
    : ToldGroup.placeIncoming sh walk existing incoming t = t := by
  induction incoming with
  | nil => rfl
  | cons name rest ih =>
      have passes : (if existing.contains name then t else t.place sh walk name) = t := by
        split_ifs with known
        · rfl
        · rcases seated with seated | full
          · exact absurd (List.contains_iff_mem.mpr (seated name List.mem_cons_self)) known
          · refine if_neg fun free => ?_
            obtain ⟨m, member, unnamed⟩ := List.any_eq_true.mp free
            rw [full m member] at unnamed
            exact Bool.noConfusion unnamed
      rw [ToldGroup.placeIncoming, passes]
      exact ih (seated.imp_left fun all n member => all n (List.mem_cons_of_mem _ member))

/-- The peers of the list that a roster was refreshed by change nothing, in whatever order. -/
theorem Refreshed.again {peers : List String} {before after : GroupMgr}
    {signals : List GroupSignal} (done : Refreshed peers before after signals)
    {names : List String} (same : ∀ name, name ∈ incomingNames sh names ↔ name ∈ peers)
    (memberCount : Nat)
    : ToldGroup.groupMemberList ⟨after, []⟩ sh walk memberCount names = ⟨after, []⟩ := by
  rw [ToldGroup.groupMemberList]
  split_ifs
  · rfl
  · dsimp only
    rw [dropAll_of_listed]
    · apply placeIncoming_of_seated
      by_cases few : peers.length ≤ maxGroupPeers
      · exact Or.inl fun name member => done.complete few name ((same name).mp member)
      · right
        have asMany := done.asMany
        rw [Nat.min_eq_left (Nat.le_of_not_le few), GroupMgr.names, List.length_map, ← done.slots,
          ← List.countP_eq_length_filter, List.countP_eq_length] at asMany
        exact asMany
    · intro m member isNamed
      refine (same m.name).mpr (done.listed m.name ?_)
      exact List.mem_map_of_mem (List.mem_filter.mpr ⟨member, isNamed⟩)

-----------------------------------------------------------------------------------------
-- Runs
-----------------------------------------------------------------------------------------

/-- A change of a slot that keeps its name. -/
theorem names_of_updateFirst {p : GroupMember → Bool} {f : GroupMember → GroupMember}
    {old : GroupMember} {after : List GroupMember}
    (found : updateFirst p f g.members = some (old, after)) (name : (f old).name = old.name)
    : after.map (·.name) = g.members.map (·.name) := by
  obtain ⟨front, back, whole, changed, -, -⟩ := updateFirst_split found
  simp [whole, changed, name]

theorem addItem_names (ptr : SpawnPtr) (s : Spawn) : (g.addItem ptr s).names = g.names := by
  rw [GroupMgr.addItem]
  split_ifs
  · rfl
  · cases found : updateFirst (·.calls s.name) (fun m => { m with spawn := some ptr }) g.members with
    | none => rfl
    | some slots =>
        rw [names_eq, names_eq]
        exact congrArg (List.filter (· != "")) (names_of_updateFirst found rfl)

theorem detach_names (s : Spawn) : (g.detach s).names = g.names := by
  rw [GroupMgr.detach]
  split_ifs
  · rfl
  · cases found : updateFirst (·.calls s.name) (fun m => { m with spawn := none }) g.members with
    | none => rfl
    | some slots =>
        rw [names_eq, names_eq]
        exact congrArg (List.filter (· != "")) (names_of_updateFirst found rfl)

theorem slot_names (key : Nat) (signal : SpawnSignal) : (g.slot key signal).names = g.names := by
  unfold GroupMgr.slot
  split
  · exact addItem_names _ _
  · exact addItem_names _ _
  · exact detach_names _
  · exact detach_names _
  · exact detach_names _
  · exact detach_names _
  · rfl

/-- What the shell tells of changes no name. -/
theorem onShell_names (w : GroupWorld) (key : Nat) (r : SpawnShell × List SpawnSignal)
    : (w.onShell key r).group.names = w.group.names := by
  obtain ⟨sh, signals⟩ := r
  change (signals.foldl (GroupMgr.slot key) w.group).names = w.group.names
  generalize w.group = g
  induction signals generalizing g with
  | nil => rfl
  | cons signal rest ih => rw [List.foldl_cons, ih, slot_names]

theorem freeSpawn_names (key : Nat) : (g.freeSpawn key).names = g.names := by
  rw [names_eq, names_eq, GroupMgr.freeSpawn, List.map_map]
  refine congrArg (List.filter (· != "")) (List.map_congr_left fun m _ => ?_)
  simp only [Function.comp_apply]
  split_ifs <;> rfl

theorem clear_names : g.clear.names = g.names := by
  rw [names_eq, names_eq, GroupMgr.clear, List.map_map]
  rfl

/-- A name that is added was not there. -/
theorem addGroupMember_distinct (distinct : g.names.Nodup) (name : String)
    : (g.addGroupMember sh walk name).names.Nodup := by
  rw [GroupMgr.addGroupMember]
  split_ifs with empty self tracked
  · exact distinct
  · exact distinct
  · exact distinct
  · have new : name ∉ g.names := by
      rw [names_eq, List.mem_filter, List.mem_map]
      rintro ⟨⟨m, member, same⟩, -⟩
      exact tracked (List.any_eq_true.mpr ⟨m, member, beq_iff_eq.mpr same⟩)
    have seated := (place_eq ⟨g, []⟩ sh walk name).1
    rw [ToldGroup.place_group] at seated
    have isName : ∀ n ∈ [name], n ≠ "" := by simpa using empty
    have perm := names_perm sh walk g.members isName
    rw [List.map_singleton, ← seated] at perm
    change (GroupMgr.names (g.place sh walk name)).Perm (g.names ++ _) at perm
    rw [perm.nodup_iff]
    refine distinct.append ((List.nodup_singleton name).sublist (List.take_sublist _ _)) ?_
    intro n one other
    rw [List.mem_singleton.mp (List.mem_of_mem_take other)] at one
    exact new one

theorem removeGroupMember_distinct (distinct : g.names.Nodup) (name : String)
    : (g.removeGroupMember sh walk name).names.Nodup := by
  rw [GroupMgr.removeGroupMember]
  by_cases self : name = sh.player.shown.name
  · rw [if_pos self]
    have none : GroupMgr.names ⟨g.members.map fun _ => .empty, 0, 0⟩ = [] := by
      rw [names_eq, List.filter_eq_nil_iff]
      simp [GroupMember.empty]
    rw [none]
    exact List.nodup_nil
  · rw [if_neg self]
    cases found : updateFirst (fun m : GroupMember => m.name == name) (fun _ => .empty)
        g.members with
    | none => exact distinct
    | some slots =>
        obtain ⟨old, after⟩ := slots
        obtain ⟨front, back, whole, rfl, -, -⟩ := updateFirst_split found
        rw [names_eq, whole, List.map_append, List.map_cons, List.filter_append] at distinct
        rw [names_eq, List.map_append, List.map_cons, List.filter_append,
          List.filter_cons_of_neg (by decide)]
        exact distinct.sublist
          ((List.Sublist.refl _).append ((List.sublist_cons_self _ _).filter _))

/-- Five slots, and no name in two of them. -/
structure Kept (w : GroupWorld) : Prop where
  tidy : w.Tidy
  distinct : w.group.names.Nodup

/-- The list of the members with its signals, from a group that is silent. -/
def told (w : GroupWorld) (walk : List Nat) (memberCount : Nat) (names : List String) : ToldGroup :=
  ToldGroup.groupMemberList ⟨w.group, []⟩ w.shell walk memberCount names

theorem told_group (w : GroupWorld) (walk : List Nat) (memberCount : Nat) (names : List String)
    : (told w walk memberCount names).group
      = (GroupWorld.step (.groupMemberList walk memberCount names) w).group :=
  ToldGroup.groupMemberList_group memberCount names

theorem kept_step {w : GroupWorld} (op : GroupOp) (kept : Kept w)
    : Kept (GroupWorld.step op w) := by
  refine ⟨GroupSession.tidy_step op kept.tidy, ?_⟩
  have distinct := kept.distinct
  cases op with
  | addGroupMember walk name => exact addGroupMember_distinct distinct name
  | groupMemberList walk memberCount names =>
      by_cases ignored : memberCount = 0 ∨ maxGroupMembers < memberCount
      · rw [GroupWorld.step, GroupMgr.groupMemberList, if_pos ignored]
        exact distinct
      · rw [← told_group]
        exact (refreshed (t := ⟨w.group, []⟩) _ _ kept.tidy.peers distinct rfl ignored names).distinct
  | removeGroupMember walk memberName => exact removeGroupMember_distinct distinct memberName
  | newSpawn d =>
      rw [GroupWorld.step, onShell_names]
      exact distinct
  | upsertSpawn id r =>
      rw [GroupWorld.step, onShell_names]
      exact distinct
  | removeSpawn id =>
      rw [GroupWorld.step, GroupWorld.freeSpawn, freeSpawn_names, onShell_names]
      exact distinct
  | deleteSpawn id =>
      rw [GroupWorld.step, GroupWorld.freeSpawn, freeSpawn_names, onShell_names]
      exact distinct
  | killSpawn id killerId =>
      rw [GroupWorld.step, onShell_names]
      exact distinct
  | clear =>
      rw [GroupWorld.step, clear_names]
      exact distinct

theorem kept_exec (sh : SpawnShell) (before : List GroupOp)
    : Kept (Machine.exec GroupWorld.step (GroupWorld.start sh) before) := by
  refine Machine.exec_invariant ⟨GroupWorld.start_tidy sh, ?_⟩ (fun _ op kept => kept_step op kept)
    before
  rw [names_eq, List.filter_eq_nil_iff.mpr]
  · exact List.nodup_nil
  · intro name listed
    obtain ⟨m, member, rfl⟩ := List.mem_map.mp listed
    rw [List.eq_of_mem_replicate member]
    decide

/-- After any run, a list of the members is the difference that it should be, and the same names
once more are none.
-/
theorem groupMemberList_refreshes (sh : SpawnShell) (before : List GroupOp)
    (walk walkAgain : List Nat) (memberCount countAgain : Nat) (names namesAgain : List String)
    (counted : 1 ≤ memberCount ∧ memberCount ≤ maxGroupMembers)
    (same : ∀ name, name ∈ namesAgain ↔ name ∈ names)
    : let w := Machine.exec GroupWorld.step (GroupWorld.start sh) before
      let t := told w walk memberCount names
      t.group = (GroupWorld.step (.groupMemberList walk memberCount names) w).group
        ∧ Refreshed (incomingNames w.shell names) w.group t.group t.signals
        ∧ ToldGroup.groupMemberList ⟨t.group, []⟩ w.shell walkAgain countAgain namesAgain
            = ⟨t.group, []⟩ := by
  intro w t
  have kept : Kept w := kept_exec sh before
  have inRange : ¬ (memberCount = 0 ∨ maxGroupMembers < memberCount) := by omega
  have done := refreshed (t := ⟨w.group, []⟩) w.shell walk kept.tidy.peers
    kept.distinct rfl inRange names
  refine ⟨told_group w walk memberCount names, done, done.again (fun name => ?_) countAgain⟩
  rw [incomingNames, incomingNames, List.mem_dedup, List.mem_dedup, List.mem_filter,
    List.mem_filter, same]

/-- Two peers, of which one leaves when another joins. -/
theorem groupMemberList_refreshes_newcomer
    : let w := Machine.exec GroupWorld.step (GroupWorld.start ZoneSession.newcomer)
        [.addGroupMember [] "Soandso", .addGroupMember [] "Whatsit"]
      let t := told w [] 2 ["Whatsit", "Another"]
      t.group.names = ["Another", "Whatsit"]
        ∧ t.signals = [.removed "Soandso" none, .added "Another" none]
        ∧ ToldGroup.groupMemberList ⟨t.group, []⟩ w.shell [] 2 ["Another", "Whatsit"]
            = ⟨t.group, []⟩ :=
  ⟨by decide +kernel, by decide +kernel,
    (groupMemberList_refreshes ZoneSession.newcomer
      [.addGroupMember [] "Soandso", .addGroupMember [] "Whatsit"] [] [] 2 2 ["Whatsit", "Another"]
      ["Another", "Whatsit"] (by decide) (by simp [or_comm])).2.2⟩

end Roster

end Scry
