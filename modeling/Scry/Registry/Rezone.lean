import Scry.Registry.ZoneTuples

/-! A client on its way to another zone.
The announcement frees the box, and until the client's session request arrives any packet
that no box is bound to may bind it: the lookups look at ports, not at kinds of packets.
-/

namespace Scry
namespace BoxRegistry

open ZoneServerObserver (Recognises)

variable {nameHash : String → UInt64} {r : BoxRegistry} {h : Handle} {clientIp : UInt32}
  {p : UInt16}

/-- The box of the client awaits a zone session on the port. -/
def Waiting (h : Handle) (clientIp : UInt32) (p : UInt16) (r : BoxRegistry) : Prop :=
  ∃ b ∈ r.boxes,
    b.handle = h
      ∧ b.clientIp = clientIp
      ∧ b.zoneClientPort = 0
      ∧ b.expectedZoneServerIp = 0
      ∧ b.expectedZoneServerPort = p

/-- The box of the client is bound to some zone session. -/
def Taken (h : Handle) (clientIp : UInt32) (r : BoxRegistry) : Prop :=
  ∃ b ∈ r.boxes, b.handle = h ∧ b.clientIp = clientIp ∧ b.zoneClientPort ≠ 0

/-- No other unbound box expects the port. -/
def OnlyAwaits (h : Handle) (p : UInt16) (r : BoxRegistry) : Prop :=
  ∀ x ∈ r.boxes, x.zoneClientPort = 0 → x.expectedZoneServerPort = p → x.handle = h

/-- No announcement for the box or of its port to another one, and the box is not reaped. -/
def MeanwhileOf (h : Handle) (p : UInt16) (r : BoxRegistry) : RegistryOp → Prop
  | .zoneServerInfo h' packet _ =>
      Recognises packet → h' ≠ h ∧ ZoneServerObserver.port packet.data ≠ p
  | .evictStale nowMs ttlMs => ∀ b ∈ r.boxes, b.handle = h → r.Spares nowMs ttlMs b
  | _ => True

/-- A packet of no bound tuple takes the box for its session: the box expects the port it
goes to; or no box does, and the box expects the port it comes from; or no box does either,
and it is a session request while the box was the last of its client in the world.
-/
def Captures (h : Handle) (r : BoxRegistry) : RegistryOp → Prop
  | .zonePacket _ packet nowMs =>
      (∀ x ∈ r.boxes, x.zoneTuple ≠ (packet.srcIp, packet.srcPort, packet.dstPort))
        ∧ (∀ x ∈ r.boxes, x.zoneTuple ≠ (packet.dstIp, packet.dstPort, packet.srcPort))
        ∧ ((packet.srcPort ≠ 0
            ∧ ∃ b ∈ r.boxes,
                b.handle = h
                  ∧ b.expectsZone packet.srcIp packet.dstIp packet.dstPort = true)
          ∨ ((∀ x ∈ r.boxes, x.expectsZone packet.srcIp packet.dstIp packet.dstPort = false)
            ∧ ((packet.dstPort ≠ 0
                ∧ ∃ b ∈ r.boxes,
                    b.handle = h
                      ∧ b.expectsZone packet.dstIp packet.srcIp packet.srcPort = true)
              ∨ ((∀ x ∈ r.boxes,
                    x.expectsZone packet.dstIp packet.srcIp packet.srcPort = false)
                ∧ packet.srcPort ≠ 0
                ∧ packet.netOpCode = OP_SessionRequest
                ∧ (r.lookupByRecentWorld packet.srcIp packet.dstIp nowMs kZoneBindWindowMs).map
                    Box.handle
                  = some h))))
  | _ => False

-----------------------------------------------------------------------------------------
-- Boxes that keep their zones
-----------------------------------------------------------------------------------------

/-- The parts of a box's zone. -/
theorem zone_eq_iff {b c : Box}
    : c.zone = b.zone
      ↔ c.clientIp = b.clientIp
        ∧ c.zoneClientPort = b.zoneClientPort
        ∧ c.zoneServerPortBound = b.zoneServerPortBound
        ∧ c.expectedZoneServerIp = b.expectedZoneServerIp
        ∧ c.expectedZoneServerPort = b.expectedZoneServerPort := by
  simp only [Box.zone, Box.zoneTuple, Prod.mk.injEq, and_assoc]

theorem Waiting.of_zonesKept (waiting : r.Waiting h clientIp p) {t : BoxRegistry}
    (kept : r.ZonesKept t)
    : t.Waiting h clientIp p := by
  obtain ⟨b, member, handle, client, unbound, address, port⟩ := waiting
  obtain ⟨g, boxes, same⟩ := kept
  obtain ⟨handle', zone⟩ := same b member
  obtain ⟨client', bound', _, address', port'⟩ := zone_eq_iff.mp zone
  refine ⟨g b, ?_, handle'.trans handle, client'.trans client, bound'.trans unbound,
    address'.trans address, port'.trans port⟩
  rw [boxes]
  exact List.mem_map_of_mem member

theorem Taken.of_zonesKept (taken : r.Taken h clientIp) {t : BoxRegistry} (kept : r.ZonesKept t)
    : t.Taken h clientIp := by
  obtain ⟨b, member, handle, client, bound⟩ := taken
  obtain ⟨g, boxes, same⟩ := kept
  obtain ⟨handle', zone⟩ := same b member
  obtain ⟨client', bound', _⟩ := zone_eq_iff.mp zone
  refine ⟨g b, ?_, handle'.trans handle, client'.trans client, bound'.trans_ne bound⟩
  rw [boxes]
  exact List.mem_map_of_mem member

theorem OnlyAwaits.of_zonesKept (only : r.OnlyAwaits h p) {t : BoxRegistry}
    (kept : r.ZonesKept t)
    : t.OnlyAwaits h p := by
  obtain ⟨g, boxes, same⟩ := kept
  intro c member unbound port
  rw [boxes] at member
  obtain ⟨b, there, rfl⟩ := List.mem_map.mp member
  obtain ⟨handle', zone⟩ := same b there
  obtain ⟨_, bound', _, _, port'⟩ := zone_eq_iff.mp zone
  exact handle'.trans (only b there (bound'.symm.trans unbound) (port'.symm.trans port))

/-- A write to another box leaves the waiting one. -/
theorem Waiting.update (waiting : r.Waiting h clientIp p) {other : Handle} (apart : other ≠ h)
    (f : Box → Box)
    : (r.update other f).Waiting h clientIp p := by
  obtain ⟨b, member, handle, rest⟩ := waiting
  refine ⟨b, mem_update.mpr ⟨b, member, ?_⟩, handle, rest⟩
  rw [if_neg (fun same => apart (same.symm.trans handle))]

theorem Taken.update (taken : r.Taken h clientIp) {other : Handle} (apart : other ≠ h)
    (f : Box → Box)
    : (r.update other f).Taken h clientIp := by
  obtain ⟨b, member, handle, rest⟩ := taken
  refine ⟨b, mem_update.mpr ⟨b, member, ?_⟩, handle, rest⟩
  rw [if_neg (fun same => apart (same.symm.trans handle))]

/-- Binding a box makes no box await the port that did not before. -/
theorem OnlyAwaits.bind (only : r.OnlyAwaits h p) {b : Box} (member : b ∈ r.boxes)
    (unbound : b.zoneClientPort = 0) (wellFormed : WellFormed nameHash r)
    (clientPort serverPort : UInt16)
    : (r.update b.handle (.bound clientPort serverPort)).OnlyAwaits h p := by
  intro c there free port
  obtain ⟨x, present, rfl⟩ := mem_update.mp there
  split_ifs at free port ⊢ with own
  · rw [wellFormed.eq_of_handle present member own] at port ⊢
    exact only b member unbound port
  · exact only x present free port

theorem OnlyAwaits.step (only : r.OnlyAwaits h p) (wellFormed : WellFormed nameHash r)
    (positive : p ≠ 0) {op : RegistryOp} (meanwhile : MeanwhileOf h p r op)
    : (BoxRegistry.step nameHash op r).OnlyAwaits h p := by
  cases zoneStep_step nameHash r op with
  | kept zones => exact only.of_zonesKept zones
  | added b unbound idle boxes =>
      intro c member free port
      rw [boxes, List.mem_append, List.mem_singleton] at member
      rcases member with old | rfl
      · exact only c old free port
      · exact absurd (port.symm.trans idle.2) positive
  | evicted registry =>
      intro c member free port
      rw [registry] at member
      exact only c (mem_evictStale.mp member).1 free port
  | freed recognised registry =>
      intro c member free port
      rw [registry] at member
      obtain ⟨x, present, rfl⟩ := mem_update.mp member
      split_ifs at free port ⊢
      · exact absurd port (meanwhile recognised).2
      · exact only x present free port
  | bound b member unbound clientPort serverPort ports new zones =>
      exact (only.bind member unbound wellFormed clientPort serverPort).of_zonesKept zones

theorem Taken.step (taken : r.Taken h clientIp) (wellFormed : WellFormed nameHash r)
    {op : RegistryOp} (meanwhile : MeanwhileOf h p r op)
    : (BoxRegistry.step nameHash op r).Taken h clientIp := by
  cases zoneStep_step nameHash r op with
  | kept zones => exact taken.of_zonesKept zones
  | added b _ _ boxes =>
      obtain ⟨c, member, rest⟩ := taken
      refine ⟨c, ?_, rest⟩
      rw [boxes]
      exact List.mem_append_left _ member
  | evicted registry =>
      obtain ⟨c, member, handle, rest⟩ := taken
      rw [registry]
      exact ⟨c, mem_evictStale.mpr ⟨member, meanwhile c member handle⟩, handle, rest⟩
  | freed recognised registry =>
      rw [registry]
      exact taken.update (meanwhile recognised).1 _
  | bound b member unbound clientPort serverPort ports new zones =>
      refine (taken.update (fun same => ?_) _).of_zonesKept zones
      obtain ⟨c, there, handle, _, bound⟩ := taken
      rw [wellFormed.eq_of_handle there member (handle.trans same.symm)] at bound
      exact bound unbound

-----------------------------------------------------------------------------------------
-- A packet that takes the box
-----------------------------------------------------------------------------------------

/-- What a packet leaves of a waiting box: taken if it captures the box, waiting if not. -/
def Outcome (h : Handle) (clientIp : UInt32) (p : UInt16) (captured : Prop) (t : BoxRegistry)
    : Prop :=
  (captured → t.Taken h clientIp) ∧ (¬ captured → t.Waiting h clientIp p)

theorem zonesKept_stamped (s : BoxRegistry) (h : Handle) (nowMs : Int)
    : s.ZonesKept (s.update h (.stamped nowMs)) :=
  zonesKept_update h (fun _ => ⟨rfl, rfl⟩)

/-- Nothing captures a box while no box is bound. -/
theorem Waiting.outcome (waiting : r.Waiting h clientIp p) {t : BoxRegistry}
    (kept : r.ZonesKept t) {captured : Prop} (none : ¬ captured)
    : t.Outcome h clientIp p captured :=
  ⟨fun captured => absurd captured none, fun _ => waiting.of_zonesKept kept⟩

/-- Binding a box takes the waiting one if it is that box and the port is not zero. -/
theorem Waiting.outcome_bound (waiting : r.Waiting h clientIp p) {b : Box} (member : b ∈ r.boxes)
    (wellFormed : WellFormed nameHash r) (clientPort serverPort : UInt16) (nowMs : Int)
    {captured : Prop} (captures : captured ↔ b.handle = h ∧ clientPort ≠ 0)
    : Outcome h clientIp p captured
        ((r.update b.handle (.bound clientPort serverPort)).update b.handle
          (.stamped nowMs)) := by
  have kept := zonesKept_stamped (r.update b.handle (.bound clientPort serverPort)) b.handle nowMs
  by_cases own : b.handle = h
  · obtain ⟨c, there, handle, client, unbound, address, port⟩ := waiting
    have same := wellFormed.eq_of_handle there member (handle.trans own.symm)
    subst same
    have written : c.bound clientPort serverPort
        ∈ (r.update c.handle (.bound clientPort serverPort)).boxes :=
      mem_update.mpr ⟨c, member, by rw [if_pos rfl]⟩
    constructor
    · intro captured
      refine Taken.of_zonesKept ⟨_, written, handle, client, ?_⟩ kept
      exact (captures.mp captured).2
    · intro free
      have zero : clientPort = 0 := by
        by_contra positive
        exact free (captures.mpr ⟨own, positive⟩)
      refine Waiting.of_zonesKept ⟨_, written, handle, client, ?_, address, port⟩ kept
      exact zero
  · refine ⟨fun captured => absurd (captures.mp captured).1 own, fun _ => ?_⟩
    exact (waiting.update own _).of_zonesKept kept

theorem lookupByExpectedZone_eq_none {clientIp serverIp : UInt32} {port : UInt16}
    (none : r.lookupByExpectedZone clientIp serverIp port = none)
    : ∀ x ∈ r.boxes, x.expectsZone clientIp serverIp port = false := by
  intro x member
  by_contra expects
  have nonempty : r.boxes.filter (Box.expectsZone clientIp serverIp port) ≠ [] := by
    refine List.ne_nil_of_mem (List.mem_filter.mpr ⟨member, ?_⟩)
    simpa using expects
  have found := latest_isSome Box.zoneAwaitMs nonempty
  simp only [lookupByExpectedZone] at none
  rw [none] at found
  cases found

theorem of_lookupByExpectedZone {clientIp serverIp : UInt32} {port : UInt16} {b : Box}
    (found : r.lookupByExpectedZone clientIp serverIp port = some b)
    : b ∈ r.boxes ∧ b.expectsZone clientIp serverIp port = true :=
  List.mem_filter.mp (latest_eq_some found).1

theorem port_of_expectsZone {clientIp serverIp : UInt32} {port : UInt16} {b : Box}
    (expects : b.expectsZone clientIp serverIp port = true)
    : b.expectedZoneServerPort = port := by
  simp only [Box.expectsZone, Bool.and_eq_true, beq_iff_eq] at expects
  exact expects.2

/-- Of the boxes that expect a port the waiting one expects there is only that one. -/
theorem OnlyAwaits.same_of_expectsZone (only : r.OnlyAwaits h p)
    (waiting : r.Waiting h clientIp p) (wellFormed : WellFormed nameHash r) {ip serverIp : UInt32}
    {port : UInt16} {b c : Box} (first : b ∈ r.boxes) (handle : b.handle = h)
    (expects : b.expectsZone ip serverIp port = true) (second : c ∈ r.boxes)
    (expects' : c.expectsZone ip serverIp port = true)
    : c.handle = h := by
  obtain ⟨w, there, own, _, _, _, awaited⟩ := waiting
  have same := wellFormed.eq_of_handle there first (own.trans handle.symm)
  subst same
  refine only c second (unbound_of_expectsZone expects').2 ?_
  rw [port_of_expectsZone expects', ← port_of_expectsZone expects, awaited]

theorem Waiting.dispatchZone (waiting : r.Waiting h clientIp p) (only : r.OnlyAwaits h p)
    (wellFormed : WellFormed nameHash r) (clientAddr : UInt32) (packet : ZonePacket)
    (nowMs : Int)
    : (r.dispatchZone clientAddr packet nowMs).2.Outcome h clientIp p
        (r.Captures h (.zonePacket clientAddr packet nowMs)) := by
  have unique {ip serverIp : UInt32} {port : UInt16} {b : Box} (first : b ∈ r.boxes)
      (expects : b.expectsZone ip serverIp port = true)
      (own : ∃ c ∈ r.boxes, c.handle = h ∧ c.expectsZone ip serverIp port = true)
      : b.handle = h := by
    obtain ⟨c, there, handle, expects'⟩ := own
    exact only.same_of_expectsZone waiting wellFormed there handle expects' first expects
  unfold BoxRegistry.dispatchZone BoxRegistry.pickBox
  cases source : r.lookupBoundZone packet.srcIp packet.srcPort packet.dstPort with
  | some b =>
      obtain ⟨member, tuple⟩ := of_lookupBoundZone source
      exact waiting.outcome (zonesKept_stamped r _ nowMs)
        (fun captured => captured.1 b member tuple)
  | none =>
  cases target : r.lookupBoundZone packet.dstIp packet.dstPort packet.srcPort with
  | some b =>
      obtain ⟨member, tuple⟩ := of_lookupBoundZone target
      exact waiting.outcome (zonesKept_stamped r _ nowMs)
        (fun captured => captured.2.1 b member tuple)
  | none =>
  have free := lookupBoundZone_eq_none.mp source
  have free' := lookupBoundZone_eq_none.mp target
  simp only
  cases toServer : r.lookupByExpectedZone packet.srcIp packet.dstIp packet.dstPort with
  | some b =>
      obtain ⟨member, expects⟩ := of_lookupByExpectedZone toServer
      refine waiting.outcome_bound member wellFormed _ _ nowMs ⟨?_, ?_⟩
      · rintro ⟨_, _, ⟨port, own⟩ | ⟨none, _⟩⟩
        · exact ⟨unique member expects own, port⟩
        · rw [none b member] at expects
          cases expects
      · rintro ⟨own, port⟩
        exact ⟨free, free', Or.inl ⟨port, b, member, own, expects⟩⟩
  | none =>
  have idle := lookupByExpectedZone_eq_none toServer
  simp only
  cases toClient : r.lookupByExpectedZone packet.dstIp packet.srcIp packet.srcPort with
  | some b =>
      obtain ⟨member, expects⟩ := of_lookupByExpectedZone toClient
      refine waiting.outcome_bound member wellFormed _ _ nowMs ⟨?_, ?_⟩
      · rintro ⟨_, _, ⟨_, c, there, _, expects'⟩ | ⟨_, ⟨port, own⟩ | ⟨none, _⟩⟩⟩
        · rw [idle c there] at expects'
          cases expects'
        · exact ⟨unique member expects own, port⟩
        · rw [none b member] at expects
          cases expects
      · rintro ⟨own, port⟩
        exact ⟨free, free', Or.inr ⟨idle, Or.inl ⟨port, b, member, own, expects⟩⟩⟩
  | none =>
  have idle' := lookupByExpectedZone_eq_none toClient
  have rest (captured : r.Captures h (.zonePacket clientAddr packet nowMs))
      : packet.srcPort ≠ 0
        ∧ packet.netOpCode = OP_SessionRequest
        ∧ (r.lookupByRecentWorld packet.srcIp packet.dstIp nowMs kZoneBindWindowMs).map
            Box.handle
          = some h := by
    rcases captured with
      ⟨_, _, ⟨_, c, there, _, expects⟩ | ⟨_, ⟨_, c, there, _, expects⟩ | ⟨_, last⟩⟩⟩
    · rw [idle c there] at expects
      cases expects
    · rw [idle' c there] at expects
      cases expects
    · exact last
  simp only
  split_ifs with request
  · cases recent : r.lookupByRecentWorld packet.srcIp packet.dstIp nowMs kZoneBindWindowMs with
    | some b =>
        have member := (List.mem_filter.mp (latest_eq_some recent).1).1
        refine waiting.outcome_bound member wellFormed _ _ nowMs ⟨?_, ?_⟩
        · intro captured
          obtain ⟨port, _, own⟩ := rest captured
          rw [recent] at own
          exact ⟨Option.some.inj own, port⟩
        · rintro ⟨own, port⟩
          refine ⟨free, free', Or.inr ⟨idle, Or.inr ⟨idle', port, request.1, ?_⟩⟩⟩
          rw [recent]
          exact congrArg some own
    | none =>
        have none : ¬ r.Captures h (.zonePacket clientAddr packet nowMs) := by
          intro captured
          obtain ⟨_, _, own⟩ := rest captured
          rw [recent] at own
          cases own
        simp only
        split <;> exact waiting.outcome (zonesKept_of_eq rfl) none
  · have none : ¬ r.Captures h (.zonePacket clientAddr packet nowMs) := by
      intro captured
      obtain ⟨_, kind, own⟩ := rest captured
      obtain ⟨b, recent, _⟩ := Option.map_eq_some_iff.mp own
      obtain ⟨member, inWorld⟩ := List.mem_filter.mp (latest_eq_some recent).1
      refine request ⟨kind, List.any_eq_true.mpr ⟨b, member, ?_⟩⟩
      simp [(unbound_of_recentlyInWorld inWorld).1]
    simp only
    split <;> exact waiting.outcome (zonesKept_of_eq rfl) none

/-- What any operation meanwhile leaves of a waiting box. -/
theorem Waiting.step (waiting : r.Waiting h clientIp p) (only : r.OnlyAwaits h p)
    (wellFormed : WellFormed nameHash r) {op : RegistryOp} (meanwhile : MeanwhileOf h p r op)
    : (BoxRegistry.step nameHash op r).Outcome h clientIp p (r.Captures h op) := by
  cases zoneStep_step nameHash r op with
  | kept zones =>
      cases op with
      | zonePacket clientAddr packet nowMs =>
          exact waiting.dispatchZone only wellFormed clientAddr packet nowMs
      | _ => exact waiting.outcome zones not_false
  | added b _ _ boxes =>
      cases op with
      | zonePacket clientAddr packet nowMs =>
          exact waiting.dispatchZone only wellFormed clientAddr packet nowMs
      | _ =>
          refine ⟨fun captured => captured.elim, fun _ => ?_⟩
          obtain ⟨c, member, rest⟩ := waiting
          refine ⟨c, ?_, rest⟩
          rw [boxes]
          exact List.mem_append_left _ member
  | evicted registry =>
      refine ⟨fun captured => captured.elim, fun _ => ?_⟩
      obtain ⟨c, member, handle, rest⟩ := waiting
      rw [registry]
      exact ⟨c, mem_evictStale.mpr ⟨member, meanwhile c member handle⟩, handle, rest⟩
  | freed recognised registry =>
      refine ⟨fun captured => captured.elim, fun _ => ?_⟩
      rw [registry]
      exact waiting.update (meanwhile recognised).1 _
  | @bound clientAddr packet nowMs _ _ _ _ _ _ _ _ =>
      exact waiting.dispatchZone only wellFormed clientAddr packet nowMs

/-- No packet of the run takes the box. -/
abbrev Uncaptured (nameHash : String → UInt64) (h : Handle) (r : BoxRegistry)
    (ops : List RegistryOp)
    : Prop :=
  Machine.Permits (step nameHash) (fun s op => ¬ s.Captures h op) r ops

/-- A box that was taken stays taken, by induction on the operations. -/
theorem Taken.exec (taken : r.Taken h clientIp) (only : r.OnlyAwaits h p)
    (wellFormed : WellFormed nameHash r) (positive : p ≠ 0) {ops : List RegistryOp}
    (meanwhile : Machine.Permits (BoxRegistry.step nameHash) (MeanwhileOf h p) r ops)
    : (Machine.exec (BoxRegistry.step nameHash) r ops).Taken h clientIp
      ∧ (Machine.exec (BoxRegistry.step nameHash) r ops).OnlyAwaits h p := by
  induction ops generalizing r with
  | nil => exact ⟨taken, only⟩
  | cons op rest ih =>
      exact ih (taken.step wellFormed meanwhile.1) (only.step wellFormed positive meanwhile.1)
        (wellFormed.step op) meanwhile.2

/-- A waiting box is still waiting after operations that do not capture it, and taken after
operations of which one does, by induction on them.
-/
theorem Waiting.exec (waiting : r.Waiting h clientIp p) (only : r.OnlyAwaits h p)
    (wellFormed : WellFormed nameHash r) (positive : p ≠ 0) {ops : List RegistryOp}
    (meanwhile : Machine.Permits (BoxRegistry.step nameHash) (MeanwhileOf h p) r ops)
    : ((Uncaptured nameHash h r ops
          ∧ (Machine.exec (BoxRegistry.step nameHash) r ops).Waiting h clientIp p)
        ∨ (¬ Uncaptured nameHash h r ops
          ∧ (Machine.exec (BoxRegistry.step nameHash) r ops).Taken h clientIp))
      ∧ (Machine.exec (BoxRegistry.step nameHash) r ops).OnlyAwaits h p := by
  induction ops generalizing r with
  | nil => exact ⟨Or.inl ⟨trivial, waiting⟩, only⟩
  | cons op rest ih =>
      have outcome := waiting.step only wellFormed meanwhile.1
      have only' := only.step wellFormed positive meanwhile.1
      have formed := wellFormed.step op
      by_cases captured : r.Captures h op
      · obtain ⟨taken, final⟩ := (outcome.1 captured).exec only' formed positive meanwhile.2
        exact ⟨Or.inr ⟨fun none => none.1 captured, taken⟩, final⟩
      · obtain ⟨either, final⟩ := ih (outcome.2 captured) only' formed meanwhile.2
        refine ⟨?_, final⟩
        rcases either with ⟨none, waiting⟩ | ⟨some, taken⟩
        · exact Or.inl ⟨⟨captured, none⟩, waiting⟩
        · exact Or.inr ⟨fun none => some none.2, taken⟩

-----------------------------------------------------------------------------------------
-- The session request
-----------------------------------------------------------------------------------------

/-- The packet goes to the zone streams of the box as one from its client; the primary box's
zone streams are the global ones.
-/
def ReachesBox (r : BoxRegistry) (h : Handle) : Destination → Prop
  | .zoneStreams route => route = ⟨h, true⟩
  | .globalStreams srcIsClient =>
      srcIsClient = true ∧ ∃ b ∈ r.boxes, b.handle = h ∧ b.isPrimary = true
  | .dropped => False

/-- A session request from the client to the port, from a client port and to a server that
no box knows.
-/
structure FreshRequest (r : BoxRegistry) (clientIp : UInt32) (p : UInt16) (packet : ZonePacket)
    : Prop where
  kind : packet.netOpCode = OP_SessionRequest
  source : packet.srcIp = clientIp
  target : packet.dstPort = p
  fresh : ∀ x ∈ r.boxes, x.clientIp = clientIp → x.zoneClientPort ≠ packet.srcPort
  server : r.hasClient packet.dstIp = false

theorem FreshRequest.unbound {packet : ZonePacket}
    (request : r.FreshRequest clientIp p packet)
    : r.lookupBoundZone packet.srcIp packet.srcPort packet.dstPort = none
      ∧ r.lookupBoundZone packet.dstIp packet.dstPort packet.srcPort = none := by
  constructor
  · refine lookupBoundZone_eq_none.mpr fun x member same => ?_
    simp only [Box.zoneTuple, Prod.mk.injEq] at same
    exact request.fresh x member (same.1.trans request.source) same.2.1
  · refine lookupBoundZone_eq_none.mpr fun x member same => ?_
    simp only [Box.zoneTuple, Prod.mk.injEq] at same
    have client := List.any_eq_false.mp request.server x member
    simp [same.1] at client

/-- A waiting box gets the request. -/
theorem Waiting.request (waiting : r.Waiting h clientIp p) (only : r.OnlyAwaits h p)
    {packet : ZonePacket} (request : r.FreshRequest clientIp p packet) (clientAddr : UInt32)
    (nowMs : Int)
    : (r.dispatchZone clientAddr packet nowMs).1 = .zoneStreams ⟨h, true⟩ := by
  obtain ⟨b, member, handle, client, unbound, address, port⟩ := waiting
  have expects : b.expectsZone packet.srcIp packet.dstIp packet.dstPort = true := by
    simp [Box.expectsZone, request.source, request.target, client, unbound, address, port]
  cases found : r.lookupByExpectedZone packet.srcIp packet.dstIp packet.dstPort with
  | none =>
      rw [lookupByExpectedZone_eq_none found b member] at expects
      cases expects
  | some c =>
      obtain ⟨there, expects'⟩ := of_lookupByExpectedZone found
      have own : c.handle = h := by
        refine only c there (unbound_of_expectsZone expects').2 ?_
        rw [port_of_expectsZone expects', request.target]
      simp only [BoxRegistry.dispatchZone, pickBox, request.unbound, found, own]

/-- A taken box gets the request only as the one box of the client the global streams follow. -/
theorem Taken.request_iff (taken : r.Taken h clientIp) (only : r.OnlyAwaits h p)
    (wellFormed : WellFormed nameHash r) {packet : ZonePacket}
    (request : r.FreshRequest clientIp p packet) (clientAddr : UInt32) (nowMs : Int)
    : ReachesBox (r.dispatchZone clientAddr packet nowMs).2 h
          (r.dispatchZone clientAddr packet nowMs).1
      ↔ r.boxes.length ≤ 1 ∧ clientIp = clientAddr := by
  obtain ⟨b, member, handle, client, bound⟩ := taken
  have toServer : r.lookupByExpectedZone packet.srcIp packet.dstIp packet.dstPort = none := by
    cases found : r.lookupByExpectedZone packet.srcIp packet.dstIp packet.dstPort with
    | none => rfl
    | some c =>
        obtain ⟨there, expects⟩ := of_lookupByExpectedZone found
        have unbound := (unbound_of_expectsZone expects).2
        have own : c.handle = h := by
          refine only c there unbound ?_
          rw [port_of_expectsZone expects, request.target]
        rw [wellFormed.eq_of_handle there member (own.trans handle.symm)] at unbound
        exact absurd unbound bound
  have toClient : r.lookupByExpectedZone packet.dstIp packet.srcIp packet.srcPort = none := by
    cases found : r.lookupByExpectedZone packet.dstIp packet.srcIp packet.srcPort with
    | none => rfl
    | some c =>
        obtain ⟨there, expects⟩ := of_lookupByExpectedZone found
        have address := List.any_eq_false.mp request.server c there
        simp [(unbound_of_expectsZone expects).1] at address
  have known : r.hasClient packet.srcIp = true :=
    List.any_eq_true.mpr ⟨b, member, by simp [client, request.source]⟩
  cases recent : r.lookupByRecentWorld packet.srcIp packet.dstIp nowMs kZoneBindWindowMs with
  | some c =>
      obtain ⟨there, inWorld⟩ := List.mem_filter.mp (latest_eq_some recent).1
      have other : c.handle ≠ h := by
        intro own
        have unbound := (unbound_of_recentlyInWorld inWorld).2
        rw [wellFormed.eq_of_handle there member (own.trans handle.symm)] at unbound
        exact bound unbound
      have apart : ¬ r.boxes.length ≤ 1 := by
        intro few
        refine other ?_
        have same : c = b := by
          obtain ⟨i, inside, rfl⟩ := List.mem_iff_getElem.mp there
          obtain ⟨j, inside', rfl⟩ := List.mem_iff_getElem.mp member
          have first : i = 0 := by omega
          have second : j = 0 := by omega
          simp [first, second]
        rw [same, handle]
      have picked : (r.dispatchZone clientAddr packet nowMs).1 = .zoneStreams ⟨c.handle, true⟩ := by
        simp [BoxRegistry.dispatchZone, pickBox, request.unbound, toServer, toClient,
          request.kind, known, recent]
      rw [picked]
      simp [ReachesBox, other, apart]
  | none =>
      have picked : r.pickBox packet nowMs = (none, r) := by
        simp [pickBox, request.unbound, toServer, toClient, request.kind, known, recent]
      by_cases few : r.boxes.length ≤ 1
      · have primary : ∃ b ∈ r.boxes, b.handle = h ∧ b.isPrimary = true := by
          have flags := wellFormed.primaryFirst
          refine ⟨b, member, handle, ?_⟩
          cases boxes : r.boxes with
          | nil =>
              rw [boxes] at member
              cases member
          | cons first rest =>
              rw [boxes] at flags member few
              have none : rest = [] := by simpa using few
              rw [none, List.mem_singleton] at member
              rw [member]
              exact flags.1
        simp [BoxRegistry.dispatchZone, picked, ReachesBox, few, primary, request.source]
      · simp [BoxRegistry.dispatchZone, picked, ReachesBox, few]

/-- No announcement resolves the server's address. -/
theorem expectedZoneServerIp_of_reachable {allowed : BoxRegistry → RegistryOp → Prop}
    (reachable : Reachable nameHash allowed r)
    : ∀ b ∈ r.boxes, b.expectedZoneServerIp = 0 := by
  refine reachable.invariant (I := fun s => ∀ b ∈ s.boxes, b.expectedZoneServerIp = 0)
    (by simp [empty]) ?_
  intro s op _ none
  have kept {s t : BoxRegistry} (none : ∀ b ∈ s.boxes, b.expectedZoneServerIp = 0)
      (zones : s.ZonesKept t)
      : ∀ b ∈ t.boxes, b.expectedZoneServerIp = 0 := by
    obtain ⟨g, boxes, same⟩ := zones
    intro c member
    rw [boxes] at member
    obtain ⟨b, there, rfl⟩ := List.mem_map.mp member
    rw [(zone_eq_iff.mp (same b there).2).2.2.2.1]
    exact none b there
  have written {f : Box → Box} (h : Handle)
      (same : ∀ b : Box, (f b).expectedZoneServerIp = b.expectedZoneServerIp)
      : ∀ b ∈ (s.update h f).boxes, b.expectedZoneServerIp = 0 := by
    intro c member
    obtain ⟨b, there, rfl⟩ := mem_update.mp member
    split
    · rw [same]
      exact none b there
    · exact none b there
  cases zoneStep_step nameHash s op with
  | kept zones => exact kept none zones
  | added b _ idle boxes =>
      intro c member
      rw [boxes, List.mem_append, List.mem_singleton] at member
      rcases member with old | rfl
      · exact none c old
      · exact idle.1
  | evicted registry =>
      intro c member
      rw [registry] at member
      exact none c (mem_evictStale.mp member).1
  | freed _ registry =>
      rw [registry]
      exact written _ (fun _ => rfl)
  | bound b _ _ clientPort serverPort _ _ zones =>
      exact kept (written (f := .bound clientPort serverPort) b.handle (fun _ => rfl)) zones

instance (h : Handle) (p : UInt16) (r : BoxRegistry) : Decidable (r.OnlyAwaits h p) :=
  inferInstanceAs (Decidable (∀ x ∈ r.boxes, _))

instance (h : Handle) (p : UInt16) (r : BoxRegistry) (op : RegistryOp)
    : Decidable (MeanwhileOf h p r op) :=
  match op with
  | .zoneServerInfo h' packet _ =>
      inferInstanceAs (Decidable
        (Recognises packet → h' ≠ h ∧ ZoneServerObserver.port packet.data ≠ p))
  | .evictStale nowMs ttlMs =>
      inferInstanceAs (Decidable (∀ b ∈ r.boxes, b.handle = h → r.Spares nowMs ttlMs b))
  | .observe _ _ _ _ _ | .enterWorld _ _ | .promoteByName _ _ | .setActiveCharacterId _
  | .zonePacket _ _ _ => isTrue trivial

/-- Two boxes, the second one in a zone and told to go to another one. -/
def rezoning (low : UInt8) : BoxRegistry :=
  Machine.exec (step sampleHash) empty
    (zoneSession
      ++ [.zoneServerInfo 1
            ⟨List.replicate 128 0 ++ [low, 0x1b], 130, DIR_Server, some "OP_ZoneServerInfo"⟩ 60])

/-- A late packet of the second box's old zone session, on server port 7000. -/
def latePacket : RegistryOp :=
  .zonePacket 0x0a0d0008 ⟨0x0a0d00ce, 0x0a0d0008, 7000, 5000, OP_Packet⟩ 70

/-- The second box's next session request. -/
def rezoneRequest (port : UInt16) : ZonePacket :=
  ⟨0x0a0d0008, 0x0a0d00ce, 5001, port, OP_SessionRequest⟩

theorem rezoning_reachable (low : UInt8)
    : Reachable sampleHash (fun _ _ => True) (rezoning low) := by
  refine Machine.reaches_exec ?_
  exact ⟨trivial, trivial, trivial, trivial, trivial, trivial⟩

end BoxRegistry
end Scry
