import Scry.Guilds.GuildShell
import Scry.Library.Machine

/-! What clients are sent of a guild: a client that was there all along, beside one that
subscribes now. Every envelope is stamped with the guild that is tracked when it goes out.
-/

namespace Scry

/-- A member on the wire. -/
structure WireGuildMember where
  name : String
  level : UInt8
  class_ : UInt8
  classMask : UInt32
  rank : UInt32
  lastOn : UInt32
  banker : Bool
  alt : Bool
  fullMember : Bool
  publicNote : String
  zoneId : UInt16
  deriving DecidableEq

structure WireGuildRoster where
  guildId : UInt32
  members : List WireGuildMember
  deriving DecidableEq

structure WireGuildMotd where
  guildId : UInt32
  message : String
  sender : String
  deriving DecidableEq

/-- The ranks, with their names at the same places. -/
structure WireGuildRankNames where
  guildId : UInt32
  rankIds : List UInt32
  names : List String
  deriving DecidableEq

inductive GuildEnvelope
  | guildRoster (roster : WireGuildRoster)
  | guildMotd (motd : WireGuildMotd)
  | guildRankNames (ranks : WireGuildRankNames)

def GuildMember.wire (gm : GuildMember) : WireGuildMember :=
  { name := gm.name
    level := gm.level
    class_ := gm.classVal
    classMask := gm.classMask
    rank := gm.guildRank
    lastOn := gm.lastOn
    banker := gm.banker != 0
    alt := gm.alt != 0
    fullMember := gm.fullmember != 0
    publicNote := gm.publicNote
    zoneId := gm.zoneId }

def fillGuildMotd (gs : GuildShell) : WireGuildMotd :=
  { guildId := gs.guildId, message := gs.motd, sender := gs.motdSender }

def fillGuildRankNames (gs : GuildShell) : WireGuildRankNames :=
  { guildId := gs.guildId
    rankIds := gs.rankNames.entries.map Prod.fst
    names := gs.rankNames.entries.map Prod.snd }

/-- The rows go in the order of the names. These are Latin-1, where the order of the code units is
that of the characters.
-/
def fillGuildRoster (gs : GuildShell) : WireGuildRoster :=
  { guildId := gs.guildId
    members := gs.members.keys.filterMap fun name =>
      (gs.members.find? name).map GuildMember.wire }

/-- The slots of a session. Whatever one of them is connected to is the last signal of its
operation, so that the slot reads the shell as it is afterwards.
-/
def GuildShellSignal.slot (gs : GuildShell) : GuildShellSignal → List GuildEnvelope
  | .loaded => [.guildRoster (fillGuildRoster gs)]
  | .updated _ => [.guildRoster (fillGuildRoster gs)]
  | .motdChanged => [.guildMotd (fillGuildMotd gs)]
  | .rankNamesChanged => [.guildRankNames (fillGuildRankNames gs)]
  | .cleared | .added _ => []

/-- The guild's part of `startStreaming`. -/
def GuildShell.startStreaming (gs : GuildShell) : List GuildEnvelope :=
  (if gs.members.isEmpty then [] else [.guildRoster (fillGuildRoster gs)])
    ++ (if gs.motdSet then [.guildMotd (fillGuildMotd gs)] else [])
    ++ (if gs.rankNames.isEmpty then [] else [.guildRankNames (fillGuildRankNames gs)])

/-- What a client holds: the last envelope of each kind. -/
structure GuildClient where
  roster : Option WireGuildRoster
  motd : Option WireGuildMotd
  rankNames : Option WireGuildRankNames

namespace GuildClient

def fresh : GuildClient := ⟨none, none, none⟩

def receive (c : GuildClient) : GuildEnvelope → GuildClient
  | .guildRoster roster => { c with roster := some roster }
  | .guildMotd motd => { c with motd := some motd }
  | .guildRankNames ranks => { c with rankNames := some ranks }

def receiveAll (c : GuildClient) (envelopes : List GuildEnvelope) : GuildClient :=
  envelopes.foldl receive c

/-- A client that subscribes now. -/
def newcomer (gs : GuildShell) : GuildClient := fresh.receiveAll gs.startStreaming

/-- The roster, where an empty one counts as none. -/
def shownRoster (c : GuildClient) : Option WireGuildRoster :=
  c.roster.filter fun r => r.members ≠ []

/-- The message of the day, where one without a text and a sender counts as none. -/
def shownMotd (c : GuildClient) : Option WireGuildMotd :=
  c.motd.filter fun m => m.message ≠ "" ∨ m.sender ≠ ""

/-- The rank names, where an empty table counts as none. -/
def shownRankNames (c : GuildClient) : Option WireGuildRankNames :=
  c.rankNames.filter fun r => r.rankIds ≠ []

/-- The rows of the roster, none without one. -/
def rows (c : GuildClient) : List WireGuildMember := c.roster.elim [] (·.members)

/-- Two clients hold the same of the guild. -/
structure Agrees (c d : GuildClient) : Prop where
  roster : c.shownRoster = d.shownRoster
  motd : c.shownMotd = d.shownMotd
  rankNames : c.shownRankNames = d.shownRankNames

end GuildClient

/-- What happens to the shell, and a client that subscribes. -/
inductive GuildShellOp
  | setRoster (guildId : UInt32) (rows : List GuildRosterEntry)
  | setMotd (message sender : String)
  | expandedGuildInfo (rankIndex : UInt32) (rankName : String)
  | memberZoneUpdate (u : Option GuildMemberZone)
  | subscribe

/-- The shell with a client and what its session sent last. Two fields are no state of the
source: the guild that was tracked when the message of the day came in, and for each rank the
guild that was tracked when its name came in.
-/
structure GuildSession where
  shell : GuildShell
  client : GuildClient
  sent : List GuildEnvelope
  motdGuild : UInt32
  rankGuilds : OrderedMap UInt32 UInt32

namespace GuildSession

/-- A client that subscribed before any packet. -/
def fresh : GuildSession := ⟨.fresh, .fresh, [], 0, .empty⟩

/-- An operation of the shell, with the slots that its signals run. -/
def perform (x : GuildSession) (result : GuildShell × List GuildShellSignal) : GuildSession :=
  let sent := result.2.flatMap (GuildShellSignal.slot result.1)
  { x with shell := result.1, client := x.client.receiveAll sent, sent }

/-- A rank name that came in, noted with the guild that is tracked. -/
def hearRank (x : GuildSession) (rankIndex : UInt32) (rankName : String) : GuildSession :=
  if rankIndex = 0 ∨ rankName = "" then x
  else { x with rankGuilds := x.rankGuilds.insert rankIndex x.shell.guildId }

def step : GuildShellOp → GuildSession → GuildSession
  | .setRoster guildId rows, x => x.perform (x.shell.setRoster guildId rows)
  | .setMotd message sender, x =>
      { x with motdGuild := x.shell.guildId }.perform (x.shell.setMotd message sender)
  | .expandedGuildInfo rankIndex rankName, x =>
      (x.hearRank rankIndex rankName).perform (x.shell.expandedGuildInfo rankIndex rankName)
  | .memberZoneUpdate u, x => x.perform (x.shell.memberZoneUpdate u)
  | .subscribe, x =>
      { x with client := .newcomer x.shell, sent := x.shell.startStreaming }

end GuildSession

/-- An envelope goes out under the guild that its texts came in under, unless that was none. -/
def GuildEnvelope.Attributed (motdGuild : UInt32) (rankGuilds : OrderedMap UInt32 UInt32)
    : GuildEnvelope → Prop
  | .guildRoster _ => True
  | .guildMotd m => motdGuild ≠ 0 → m.guildId = motdGuild
  | .guildRankNames r =>
      ∀ rank ∈ r.rankIds, ∀ guild, rankGuilds.find? rank = some guild → guild ≠ 0 →
        r.guildId = guild

namespace GuildSession

/-- The client and one that subscribes now hold the same, and the members of the shell as their
roster; and whatever was sent last, or goes to the one that subscribes now, is under the guild it
came in under.
-/
structure Attributed (x : GuildSession) : Prop where
  agrees : x.client.Agrees (.newcomer x.shell)
  rows : x.client.rows = x.shell.members.entries.map fun entry => entry.2.wire
  newcomerRows
    : (GuildClient.newcomer x.shell).rows
      = x.shell.members.entries.map fun entry => entry.2.wire
  published
    : ∀ env ∈ x.sent ++ x.shell.startStreaming, env.Attributed x.motdGuild x.rankGuilds

/-- A roster of another guild comes only where no rank name is held, and no message of the day but
an empty one that came in under no guild.
-/
def KeepsGuild (x : GuildSession) : GuildShellOp → Prop
  | .setRoster guildId _ =>
      guildId = x.shell.guildId
        ∨ x.shell.rankNames.isEmpty = true
          ∧ (x.shell.motdSet = true →
              (x.shell.motd = "" ∧ x.shell.motdSender = "") ∧ x.motdGuild = 0)
  | .setMotd _ _ | .expandedGuildInfo _ _ | .memberZoneUpdate _ | .subscribe => True

end GuildSession

-----------------------------------------------------------------------------------------
-- What a client that subscribes now holds
-----------------------------------------------------------------------------------------

variable {gs : GuildShell}

/-- The roster has one row for each member, under every name that is a key. -/
theorem fillGuildRoster_members (gs : GuildShell)
    : (fillGuildRoster gs).members = gs.members.entries.map fun entry => entry.2.wire := by
  rw [fillGuildRoster, OrderedMap.keys, List.filterMap_map, ← List.filterMap_eq_map]
  apply List.filterMap_congr
  intro entry listed
  have found : gs.members.find? entry.1 = some entry.2 :=
    OrderedMap.find?_eq_some_iff.mpr listed
  simp [found]

theorem fillGuildRoster_eq_nil_iff
    : (fillGuildRoster gs).members = [] ↔ gs.members.isEmpty = true := by
  rw [fillGuildRoster_members, List.map_eq_nil_iff, OrderedMap.isEmpty, List.isEmpty_iff]

theorem fillGuildRankNames_eq_nil_iff
    : (fillGuildRankNames gs).rankIds = [] ↔ gs.rankNames.isEmpty = true := by
  rw [fillGuildRankNames, List.map_eq_nil_iff, OrderedMap.isEmpty, List.isEmpty_iff]

namespace GuildClient

theorem newcomer_eq (gs : GuildShell)
    : newcomer gs
      = { roster := if gs.members.isEmpty then none else some (fillGuildRoster gs)
          motd := if gs.motdSet then some (fillGuildMotd gs) else none
          rankNames := if gs.rankNames.isEmpty then none else some (fillGuildRankNames gs) } := by
  rw [newcomer, GuildShell.startStreaming]
  cases gs.members.isEmpty <;> cases gs.motdSet <;> cases gs.rankNames.isEmpty <;> rfl

theorem newcomer_shownRoster (gs : GuildShell)
    : (newcomer gs).shownRoster
      = (some (fillGuildRoster gs)).filter fun r => r.members ≠ [] := by
  rw [newcomer_eq, shownRoster]
  cases empty : gs.members.isEmpty with
  | true =>
      have none := fillGuildRoster_eq_nil_iff.mpr empty
      simp [Option.filter, none]
  | false => rfl

theorem newcomer_shownRankNames (gs : GuildShell)
    : (newcomer gs).shownRankNames
      = if gs.rankNames.isEmpty then none else some (fillGuildRankNames gs) := by
  rw [newcomer_eq, shownRankNames]
  cases empty : gs.rankNames.isEmpty with
  | true => rfl
  | false =>
      have some := mt fillGuildRankNames_eq_nil_iff.mp (Bool.eq_false_iff.mp empty)
      simp [some]

theorem newcomer_shownMotd (gs : GuildShell)
    : (newcomer gs).shownMotd
      = if gs.motdSet ∧ (gs.motd ≠ "" ∨ gs.motdSender ≠ "") then some (fillGuildMotd gs)
        else none := by
  rw [newcomer_eq, shownMotd]
  cases gs.motdSet with
  | true => simp [fillGuildMotd, Option.filter]
  | false => rfl

theorem newcomer_rows (gs : GuildShell)
    : (newcomer gs).rows = gs.members.entries.map fun entry => entry.2.wire := by
  rw [newcomer_eq, rows, ← fillGuildRoster_members]
  cases empty : gs.members.isEmpty with
  | true => exact (fillGuildRoster_eq_nil_iff.mpr empty).symm
  | false => rfl

end GuildClient

namespace GuildSession

variable {x : GuildSession}

/-- The names of the ranks came in under the guild that is tracked. -/
def Heard (x : GuildSession) : Prop :=
  ∀ rank ∈ x.shell.rankNames.keys, x.rankGuilds.find? rank = some x.shell.guildId

/-- The message of the day is held under the guild it came in under, unless that was none. -/
def MotdKept (x : GuildSession) : Prop :=
  x.shell.motdSet = true → x.motdGuild ≠ 0 → x.shell.guildId = x.motdGuild

theorem attributed_rankNames (heard : x.Heard)
    : (GuildEnvelope.guildRankNames (fillGuildRankNames x.shell)).Attributed
        x.motdGuild x.rankGuilds := by
  intro rank listed guild found _
  rw [heard rank listed] at found
  exact Option.some.inj found

/-- What is sent is attributed where a message of the day is. -/
theorem attributed_startStreaming_iff (heard : x.Heard)
    : (∀ env ∈ x.shell.startStreaming, env.Attributed x.motdGuild x.rankGuilds)
      ↔ x.MotdKept := by
  constructor
  · intro all set
    apply all (.guildMotd (fillGuildMotd x.shell))
    simp [GuildShell.startStreaming, set]
  · intro kept env sent
    rcases List.mem_append.mp sent with early | ranks
    · rcases List.mem_append.mp early with roster | motd
      · split at roster
        · cases roster
        · obtain rfl := List.mem_singleton.mp roster
          trivial
      · split at motd
        · obtain rfl := List.mem_singleton.mp motd
          exact kept ‹_›
        · cases motd
    · split at ranks
      · cases ranks
      · obtain rfl := List.mem_singleton.mp ranks
        exact attributed_rankNames heard

/-- The property, where what was sent last is attributed. -/
theorem attributed_of_sent_iff (heard : x.Heard)
    (sent : ∀ env ∈ x.sent, env.Attributed x.motdGuild x.rankGuilds)
    : x.Attributed
      ↔ x.client.Agrees (.newcomer x.shell)
        ∧ x.client.rows = (fillGuildRoster x.shell).members
        ∧ x.MotdKept := by
  rw [fillGuildRoster_members, ← attributed_startStreaming_iff heard]
  constructor
  · intro all
    exact ⟨all.agrees, all.rows, fun env streamed =>
      all.published env (List.mem_append_right _ streamed)⟩
  · rintro ⟨agrees, rows, streamed⟩
    refine ⟨agrees, rows, GuildClient.newcomer_rows _, ?_⟩
    intro env either
    exact (List.mem_append.mp either).elim (sent env) (streamed env)

-----------------------------------------------------------------------------------------
-- One operation
-----------------------------------------------------------------------------------------

theorem perform_setRoster (guildId : UInt32) (rows : List GuildRosterEntry)
    : x.perform (x.shell.setRoster guildId rows)
      = ⟨(x.shell.setRoster guildId rows).1,
          x.client.receive
            (.guildRoster (fillGuildRoster (x.shell.setRoster guildId rows).1)),
          [.guildRoster (fillGuildRoster (x.shell.setRoster guildId rows).1)],
          x.motdGuild, x.rankGuilds⟩ := by
  have quiet (gs : GuildShell) (members : List GuildMember)
      : (members.map GuildShellSignal.added).flatMap (GuildShellSignal.slot gs) = [] := by
    simp [List.flatMap_map, GuildShellSignal.slot]
  have signals : (x.shell.setRoster guildId rows).2.flatMap
      (GuildShellSignal.slot (x.shell.setRoster guildId rows).1)
      = [.guildRoster (fillGuildRoster (x.shell.setRoster guildId rows).1)] := by
    have added := quiet (x.shell.setRoster guildId rows).1
      ((GuildShell.named rows).map GuildMember.ofEntry)
    rw [List.map_map] at added
    simp only [GuildShell.setRoster, List.cons_append, List.flatMap_cons, List.flatMap_append]
    exact congrArg (· ++ [_]) added
  rw [perform, signals]
  rfl

theorem heard_step (op : GuildShellOp) (heard : x.Heard) : (step op x).Heard := by
  cases op with
  | setRoster guildId rows =>
      intro rank listed
      simp only [step, perform, GuildShell.setRoster] at listed ⊢
      split at listed
      · simp at listed
      · rename_i same
        rw [not_not.mp same]
        exact heard rank listed
  | setMotd message sender => exact heard
  | subscribe => exact heard
  | memberZoneUpdate u =>
      simp only [step, perform, GuildShell.memberZoneUpdate]
      split
      · exact heard
      · split <;> exact heard
  | expandedGuildInfo rankIndex rankName =>
      by_cases ignored : rankIndex = 0 ∨ rankName = ""
      · simp only [step, hearRank, GuildShell.expandedGuildInfo, if_pos ignored]
        exact heard
      · intro rank listed
        simp only [step, perform, hearRank, if_neg ignored] at listed ⊢
        rw [OrderedMap.find?_insert, GuildShell.expandedGuildInfo_guildId]
        split_ifs with same
        · rfl
        · have before := GuildShell.mem_rankNames_expandedGuildInfo listed
          exact heard rank (before.resolve_left same)

/-- A roster that is sent anew leaves it to the message and the rank names whether a client that
subscribes now agrees.
-/
theorem agrees_roster_iff (c : GuildClient) (gs : GuildShell)
    : (c.receive (.guildRoster (fillGuildRoster gs))).Agrees (.newcomer gs)
      ↔ c.shownMotd = (GuildClient.newcomer gs).shownMotd
        ∧ c.shownRankNames = (GuildClient.newcomer gs).shownRankNames := by
  constructor
  · intro agrees
    exact ⟨agrees.motd, agrees.rankNames⟩
  · rintro ⟨motd, rankNames⟩
    exact ⟨(GuildClient.newcomer_shownRoster gs).symm, motd, rankNames⟩

theorem Attributed.motdKept (heard : x.Heard) (attributed : x.Attributed) : x.MotdKept :=
  (attributed_startStreaming_iff heard).mp fun env streamed =>
    attributed.published env (List.mem_append_right _ streamed)

/-- A message of the day that is stamped with another guild is the same only where it is none. -/
theorem shownMotd_moved_iff (gs moved : GuildShell) (motd : moved.motd = gs.motd)
    (sender : moved.motdSender = gs.motdSender) (set : moved.motdSet = gs.motdSet)
    (apart : moved.guildId ≠ gs.guildId)
    : (GuildClient.newcomer gs).shownMotd = (GuildClient.newcomer moved).shownMotd
      ↔ (gs.motdSet = true → gs.motd = "" ∧ gs.motdSender = "") := by
  rw [GuildClient.newcomer_shownMotd, GuildClient.newcomer_shownMotd, motd, sender, set]
  split
  · rename_i shown
    refine iff_of_false ?_ fun blank => ?_
    · intro same
      have stamped := congrArg WireGuildMotd.guildId (Option.some.inj same)
      exact apart stamped.symm
    · have none := blank shown.1
      exact shown.2.elim (absurd none.1) (absurd none.2)
  · rename_i hidden
    refine iff_of_true rfl fun held => ?_
    by_contra filled
    exact hidden ⟨held, not_and_or.mp filled⟩

/-- A table of rank names that is dropped was no different only where it was empty. -/
theorem shownRankNames_dropped_iff (gs dropped : GuildShell) (none : dropped.rankNames = .empty)
    : (GuildClient.newcomer gs).shownRankNames = (GuildClient.newcomer dropped).shownRankNames
      ↔ gs.rankNames.isEmpty = true := by
  rw [GuildClient.newcomer_shownRankNames, GuildClient.newcomer_shownRankNames, none]
  cases gs.rankNames.isEmpty with
  | true => exact iff_of_true rfl rfl
  | false => exact iff_of_false (Option.some_ne_none _) Bool.noConfusion

theorem attributed_setRoster (heard : x.Heard) (attributed : x.Attributed) (guildId : UInt32)
    (rows : List GuildRosterEntry)
    : (step (.setRoster guildId rows) x).Attributed
      ↔ x.KeepsGuild (.setRoster guildId rows) := by
  have later := heard_step (.setRoster guildId rows) heard
  have motd := attributed.agrees.motd
  have ranks := attributed.agrees.rankNames
  have kept := attributed.motdKept heard
  rw [step, perform_setRoster] at later ⊢
  rw [attributed_of_sent_iff later (by simp [GuildEnvelope.Attributed]), agrees_roster_iff, motd, ranks]
  by_cases same : guildId = x.shell.guildId
  · subst same
    refine iff_of_true ⟨⟨?_, ?_⟩, rfl, kept⟩ (Or.inl rfl)
    · rw [GuildClient.newcomer_shownMotd, GuildClient.newcomer_shownMotd]
      rfl
    · simp only [GuildClient.newcomer_shownRankNames, GuildShell.setRoster, ne_eq, not_true,
        if_false]
      rfl
  · let after := (x.shell.setRoster guildId rows).1
    have dropped : after.rankNames = .empty := by simp [after, GuildShell.setRoster, same]
    rw [shownMotd_moved_iff x.shell after rfl rfl rfl same,
      shownRankNames_dropped_iff x.shell after dropped]
    constructor
    · rintro ⟨⟨blank, none⟩, -, moved⟩
      refine Or.inr ⟨none, fun set => ⟨blank set, ?_⟩⟩
      by_contra tracked
      have old := kept set tracked
      exact same ((moved set tracked).trans old.symm)
    · intro keeps
      obtain ⟨none, blank⟩ := keeps.resolve_left same
      exact ⟨⟨fun set => (blank set).1, none⟩, rfl, fun set tracked =>
        absurd (blank set).2 tracked⟩

/-- The client after an operation that sends nothing, and leaves alone what clients are told. -/
theorem attributed_idle (heard : x.Heard) (attributed : x.Attributed) {rankGuilds}
    (still : ({ x with sent := [], rankGuilds } : GuildSession).Heard)
    : ({ x with sent := [], rankGuilds } : GuildSession).Attributed := by
  have was := (attributed_of_sent_iff heard fun env sent =>
    attributed.published env (List.mem_append_left _ sent)).mp attributed
  exact (attributed_of_sent_iff still fun _ sent => absurd sent (by simp)).mpr was

theorem attributed_setMotd (heard : x.Heard) (attributed : x.Attributed) (message sender : String)
    : (step (.setMotd message sender) x).Attributed := by
  have later := heard_step (.setMotd message sender) heard
  refine (attributed_of_sent_iff later ?_).mpr ⟨⟨?_, ?_, ?_⟩, ?_, fun _ _ => rfl⟩
  · intro env sent
    obtain rfl := List.mem_singleton.mp sent
    exact fun _ => rfl
  · have roster := attributed.agrees.roster
    rw [GuildClient.newcomer_shownRoster] at roster ⊢
    exact roster
  · rw [GuildClient.newcomer_shownMotd]
    simp [step, perform, GuildShell.setMotd, GuildShellSignal.slot, GuildClient.receiveAll,
      GuildClient.receive, GuildClient.shownMotd, fillGuildMotd, Option.filter]
  · have ranks := attributed.agrees.rankNames
    rw [GuildClient.newcomer_shownRankNames] at ranks ⊢
    exact ranks
  · rw [fillGuildRoster_members]
    exact attributed.rows

theorem attributed_memberZoneUpdate (heard : x.Heard) (attributed : x.Attributed)
    (u : Option GuildMemberZone)
    : (step (.memberZoneUpdate u) x).Attributed := by
  have later := heard_step (.memberZoneUpdate u) heard
  have kept := attributed.motdKept heard
  cases u with
  | none => exact attributed_idle heard attributed heard
  | some u =>
      cases found : x.shell.members.find? u.name with
      | none =>
          simp only [step, GuildShell.memberZoneUpdate, found]
          exact attributed_idle heard attributed heard
      | some m =>
          simp only [step, GuildShell.memberZoneUpdate, found] at later ⊢
          have sent := agrees_roster_iff x.client
            { x.shell with
              members := x.shell.members.insert u.name
                (m.setZone u.zoneId u.zoneInstance u.lastOn) }
          refine (attributed_of_sent_iff later (by simp [perform, GuildShellSignal.slot,
            GuildEnvelope.Attributed])).mpr ⟨sent.mpr ⟨?_, ?_⟩, rfl, kept⟩
          · have motd := attributed.agrees.motd
            rw [GuildClient.newcomer_shownMotd] at motd ⊢
            exact motd
          · have ranks := attributed.agrees.rankNames
            rw [GuildClient.newcomer_shownRankNames] at ranks ⊢
            exact ranks

/-- Rank names that are sent anew are those that a client that subscribes now holds. -/
theorem shownRankNames_sent (c : GuildClient) (gs : GuildShell)
    : (c.receive (.guildRankNames (fillGuildRankNames gs))).shownRankNames
      = (GuildClient.newcomer gs).shownRankNames := by
  rw [GuildClient.newcomer_shownRankNames]
  cases empty : gs.rankNames.isEmpty with
  | true =>
      have none := fillGuildRankNames_eq_nil_iff.mpr empty
      simp [GuildClient.receive, GuildClient.shownRankNames, Option.filter, none]
  | false =>
      have some := mt fillGuildRankNames_eq_nil_iff.mp (Bool.eq_false_iff.mp empty)
      simp [GuildClient.receive, GuildClient.shownRankNames, Option.filter, some]

theorem attributed_expandedGuildInfo (heard : x.Heard) (attributed : x.Attributed)
    (rankIndex : UInt32) (rankName : String)
    : (step (.expandedGuildInfo rankIndex rankName) x).Attributed := by
  have later := heard_step (.expandedGuildInfo rankIndex rankName) heard
  have kept := attributed.motdKept heard
  by_cases ignored : rankIndex = 0 ∨ rankName = ""
  · simp only [step, hearRank, GuildShell.expandedGuildInfo, if_pos ignored]
    exact attributed_idle heard attributed heard
  · simp only [step, hearRank, GuildShell.expandedGuildInfo, if_neg ignored] at later ⊢
    by_cases known : x.shell.rankNames.find? rankIndex = some rankName
    · simp only [if_pos known] at later ⊢
      exact attributed_idle heard attributed later
    · simp only [if_neg known] at later ⊢
      refine (attributed_of_sent_iff later ?_).mpr ⟨⟨?_, ?_, ?_⟩, ?_, kept⟩
      · intro env sent
        obtain rfl := List.mem_singleton.mp sent
        exact attributed_rankNames later
      · have roster := attributed.agrees.roster
        rw [GuildClient.newcomer_shownRoster] at roster ⊢
        exact roster
      · have motd := attributed.agrees.motd
        rw [GuildClient.newcomer_shownMotd] at motd ⊢
        exact motd
      · exact shownRankNames_sent x.client _
      · rw [fillGuildRoster_members]
        exact attributed.rows

theorem attributed_step (op : GuildShellOp) (heard : x.Heard) (attributed : x.Attributed)
    : (step op x).Attributed ↔ x.KeepsGuild op := by
  cases op with
  | setRoster guildId rows => exact attributed_setRoster heard attributed guildId rows
  | setMotd message sender =>
      exact iff_of_true (attributed_setMotd heard attributed message sender) trivial
  | expandedGuildInfo rankIndex rankName =>
      exact iff_of_true (attributed_expandedGuildInfo heard attributed rankIndex rankName) trivial
  | memberZoneUpdate u =>
      exact iff_of_true (attributed_memberZoneUpdate heard attributed u) trivial
  | subscribe =>
      refine iff_of_true ⟨⟨rfl, rfl, rfl⟩, ?_, ?_, ?_⟩ trivial
      · exact GuildClient.newcomer_rows _
      · exact GuildClient.newcomer_rows _
      · intro env either
        have streamed := (List.mem_append.mp either).elim id id
        exact attributed.published env (List.mem_append_right _ streamed)

-----------------------------------------------------------------------------------------
-- Runs
-----------------------------------------------------------------------------------------

theorem heard_fresh : fresh.Heard :=
  fun _ listed => absurd listed (by simp [fresh, GuildShell.fresh])

theorem attributed_fresh : fresh.Attributed where
  agrees := ⟨rfl, rfl, rfl⟩
  rows := rfl
  newcomerRows := rfl
  published env sent := absurd sent (by simp [fresh, GuildShell.fresh, GuildShell.startStreaming,
    OrderedMap.isEmpty, OrderedMap.empty])

/-- In a run, with clients that subscribe anywhere in it, the guild's texts stay with their guild
and every client holds the same of them, exactly where no roster of another guild comes while the
texts of the one before are held.
-/
theorem guild_attributed_iff (ops : List GuildShellOp)
    : Machine.Always step Attributed fresh ops ↔ Machine.Permits step KeepsGuild fresh ops :=
  Machine.always_iff_permits heard_fresh attributed_fresh (fun _ op heard => heard_step op heard)
    fun _ op heard attributed => attributed_step op heard attributed

/-- A message of the day of guild 1, and a roster of guild 2. -/
def changesRoster : List GuildShellOp :=
  [.setRoster 1 [], .setMotd "Raid at eight" "Belgarath", .setRoster 2 []]

/-- The client that was there holds the message for guild 1, and one that subscribes then is sent
it for guild 2.
-/
theorem motd_changes_guild : ¬ ∀ ops, Machine.Always step Attributed fresh ops := by
  intro always
  have agrees := (always changesRoster).2.2.2.agrees
  exact absurd agrees.motd (by decide)

end GuildSession
end Scry
