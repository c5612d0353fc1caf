import Scry.Registry.Eviction

/-! Routing by zone tuple.
A box is bound only to a tuple that no box is bound to, and only while it is unbound itself,
so a bound tuple belongs to one box and stays with it.
-/

namespace Scry

/-- An `OP_ZoneServerInfo` the observer acts on. -/
def ZoneServerObserver.Recognises (packet : DecodedPacket) : Prop :=
  packet.entry = some "OP_ZoneServerInfo" ∧ packet.dir = DIR_Server ∧ packet.len = kZsiLen

instance (packet : DecodedPacket) : Decidable (ZoneServerObserver.Recognises packet) :=
  inferInstanceAs (Decidable (_ ∧ _ ∧ _))

namespace BoxRegistry

open ZoneServerObserver (Recognises announced)

variable {nameHash : String → UInt64} {r : BoxRegistry}

-----------------------------------------------------------------------------------------
-- What an operation does to zone tuples
-----------------------------------------------------------------------------------------

/-- Every box stays, under its handle and with its zone. -/
def ZonesKept (r t : BoxRegistry) : Prop :=
  ∃ g : Box → Box,
    t.boxes = r.boxes.map g
      ∧ ∀ b ∈ r.boxes, (g b).handle = b.handle ∧ (g b).zone = b.zone

theorem zonesKept_of_eq {t : BoxRegistry} (boxes : t.boxes = r.boxes) : r.ZonesKept t :=
  ⟨id, by simp [boxes], fun _ _ => ⟨rfl, rfl⟩⟩

theorem zonesKept_update (h : Handle) {f : Box → Box}
    (same : ∀ b : Box, (f b).handle = b.handle ∧ (f b).zone = b.zone)
    : r.ZonesKept (r.update h f) := by
  refine ⟨_, rfl, fun b _ => ?_⟩
  split
  · exact same b
  · exact ⟨rfl, rfl⟩

theorem ZonesKept.trans {t u : BoxRegistry} (first : r.ZonesKept t) (second : t.ZonesKept u)
    : r.ZonesKept u := by
  obtain ⟨g, boxes, same⟩ := first
  obtain ⟨g', boxes', same'⟩ := second
  refine ⟨g' ∘ g, by rw [boxes', boxes, List.map_map], fun b member => ?_⟩
  have there : g b ∈ t.boxes := boxes ▸ List.mem_map_of_mem member
  obtain ⟨handle, zone⟩ := same b member
  obtain ⟨handle', zone'⟩ := same' (g b) there
  exact ⟨handle'.trans handle, zone'.trans zone⟩

theorem zonesKept_promote (b : Box) (name : String) : r.ZonesKept (promote nameHash r b name) :=
  zonesKept_update b.handle (fun _ => ⟨rfl, rfl⟩)

theorem zonesKept_reclassify (id : BoxId) : r.ZonesKept (r.reclassify id) := by
  refine ⟨_, rfl, fun b _ => ?_⟩
  unfold Box.classified
  split <;> exact ⟨rfl, rfl⟩

/-- What an operation does to the zones: it keeps them, adds an unbound box, drops boxes,
frees one or binds an unbound box to a tuple that no box has.
-/
inductive ZoneStep (r t : BoxRegistry) : RegistryOp → Prop
  | kept {op} (zones : r.ZonesKept t) : ZoneStep r t op
  | added {op} (b : Box) (unbound : b.zoneClientPort = 0)
    (idle : b.expectedZoneServerIp = 0 ∧ b.expectedZoneServerPort = 0)
    (boxes : t.boxes = r.boxes ++ [b])
    : ZoneStep r t op
  | evicted {nowMs ttlMs} (registry : t = r.evictStale nowMs ttlMs)
    : ZoneStep r t (.evictStale nowMs ttlMs)
  | freed {h packet nowMs} (recognised : Recognises packet)
    (registry : t = r.update h (announced (ZoneServerObserver.port packet.data) nowMs))
    : ZoneStep r t (.zoneServerInfo h packet nowMs)
  | bound {clientAddr packet nowMs} (b : Box) (member : b ∈ r.boxes)
    (unbound : b.zoneClientPort = 0) (clientPort serverPort : UInt16)
    (ports
      : clientPort = packet.srcPort ∧ serverPort = packet.dstPort
        ∨ clientPort = packet.dstPort ∧ serverPort = packet.srcPort)
    (new : ∀ x ∈ r.boxes, x.zoneTuple ≠ (b.clientIp, clientPort, serverPort))
    (zones : (r.update b.handle (.bound clientPort serverPort)).ZonesKept t)
    : ZoneStep r t (.zonePacket clientAddr packet nowMs)

theorem zoneStep_dispatchZone (clientAddr : UInt32) (packet : ZonePacket) (nowMs : Int)
    : r.ZoneStep (r.dispatchZone clientAddr packet nowMs).2
        (.zonePacket clientAddr packet nowMs) := by
  have stamp (s : BoxRegistry) (h : Handle) : s.ZonesKept (s.update h (.stamped nowMs)) :=
    zonesKept_update h (fun _ => ⟨rfl, rfl⟩)
  unfold dispatchZone
  rcases r.pickBox_cases packet nowMs with
    ⟨b, _, _, picked⟩ | ⟨b, _, _, picked⟩
      | ⟨src, dst, ⟨b, member, unbound, client, picked⟩ | ⟨b, member, unbound, client, picked⟩
        | picked⟩
  · rw [picked]
    exact .kept (stamp r b.handle)
  · rw [picked]
    exact .kept (stamp r b.handle)
  · rw [picked]
    rw [← client] at src
    exact .bound b member unbound _ _ (Or.inl ⟨rfl, rfl⟩) src (stamp _ b.handle)
  · rw [picked]
    rw [← client] at dst
    exact .bound b member unbound _ _ (Or.inr ⟨rfl, rfl⟩) dst (stamp _ b.handle)
  · rw [picked]
    simp only
    split <;> exact .kept (zonesKept_of_eq rfl)

theorem zoneStep_step (nameHash : String → UInt64) (r : BoxRegistry) (op : RegistryOp)
    : r.ZoneStep (step nameHash op r) op := by
  cases op with
  | observe clientIp serverIp clientWorldPort serverWorldPort nowMs =>
      simp only [step, observe]
      split
      · exact .kept (zonesKept_update _ (fun _ => ⟨rfl, rfl⟩))
      · exact .added _ rfl ⟨rfl, rfl⟩ rfl
  | enterWorld h packet =>
      simp only [step]
      rcases onDecodedPacket_cases r h packet with same | ⟨b, _, _, _, result⟩
      · rw [same]
        exact .kept (zonesKept_of_eq rfl)
      · rw [result]
        exact .kept (zonesKept_promote b _)
  | promoteByName h name =>
      simp only [step]
      rcases promoteByName_cases nameHash r h name with ⟨same, _⟩ | ⟨b, _, _, _, result⟩
      · rw [same]
        exact .kept (zonesKept_of_eq rfl)
      · rw [result]
        exact .kept ((zonesKept_promote b name).trans (zonesKept_reclassify _))
  | setActiveCharacterId id =>
      simp only [step, setActiveCharacterId]
      split <;> exact .kept (zonesKept_of_eq rfl)
  | evictStale nowMs ttlMs => exact .evicted rfl
  | zoneServerInfo h packet nowMs =>
      simp only [step, ZoneServerObserver.onDecodedPacket]
      split_ifs with entry dir len
      · exact .kept (zonesKept_of_eq rfl)
      · exact .kept (zonesKept_of_eq rfl)
      · exact .kept (zonesKept_of_eq rfl)
      · exact .freed ⟨not_not.mp entry, not_not.mp dir, not_not.mp len⟩ rfl
  | zonePacket clientAddr packet nowMs => exact zoneStep_dispatchZone clientAddr packet nowMs

-----------------------------------------------------------------------------------------
-- A tuple belongs to one box
-----------------------------------------------------------------------------------------

/-- Bound boxes differ in their zone tuples. -/
def ZonesUnique (r : BoxRegistry) : Prop :=
  ∀ b ∈ r.boxes, ∀ c ∈ r.boxes,
    b.zoneClientPort ≠ 0 → b.zoneTuple = c.zoneTuple → b.handle = c.handle

/-- Every bound box was there before, under its handle and with its tuple. -/
theorem ZonesUnique.of_earlier (unique : r.ZonesUnique) {t : BoxRegistry}
    (earlier
      : ∀ c ∈ t.boxes, c.zoneClientPort ≠ 0 →
          ∃ b ∈ r.boxes, b.handle = c.handle ∧ b.zoneTuple = c.zoneTuple)
    : t.ZonesUnique := by
  intro b first c second bound same
  have ports : c.zoneClientPort = b.zoneClientPort := by
    simp only [Box.zoneTuple, Prod.mk.injEq] at same
    exact same.2.1.symm
  obtain ⟨x, there, handle, tuple⟩ := earlier b first bound
  obtain ⟨y, there', handle', tuple'⟩ := earlier c second (ports ▸ bound)
  have port : x.zoneClientPort = b.zoneClientPort := by
    simp only [Box.zoneTuple, Prod.mk.injEq] at tuple
    exact tuple.2.1
  rw [← handle, ← handle']
  exact unique x there y there' (port ▸ bound) (tuple.trans (same.trans tuple'.symm))

theorem ZonesUnique.of_zonesKept (unique : r.ZonesUnique) {t : BoxRegistry}
    (kept : r.ZonesKept t)
    : t.ZonesUnique := by
  obtain ⟨g, boxes, same⟩ := kept
  refine unique.of_earlier fun c member _ => ?_
  rw [boxes] at member
  obtain ⟨b, there, rfl⟩ := List.mem_map.mp member
  exact ⟨b, there, (same b there).1.symm, (congrArg Prod.fst (same b there).2).symm⟩

/-- Binding a box to a new tuple. -/
theorem ZonesUnique.bind (unique : r.ZonesUnique) {b : Box} {clientPort serverPort : UInt16}
    (new : ∀ x ∈ r.boxes, x.zoneTuple ≠ (b.clientIp, clientPort, serverPort))
    (clientIp : ∀ x ∈ r.boxes, x.handle = b.handle → x.clientIp = b.clientIp)
    : (r.update b.handle (.bound clientPort serverPort)).ZonesUnique := by
  intro c first d second bound same
  obtain ⟨x, there, rfl⟩ := mem_update.mp first
  obtain ⟨y, there', rfl⟩ := mem_update.mp second
  have tuple {z : Box} (present : z ∈ r.boxes) (own : z.handle = b.handle)
      : (z.bound clientPort serverPort).zoneTuple = (b.clientIp, clientPort, serverPort) := by
    simp only [Box.zoneTuple, Box.bound, clientIp z present own]
  by_cases own : x.handle = b.handle
  · by_cases own' : y.handle = b.handle
    · simp only [own, own', if_true]
      exact own.trans own'.symm
    · rw [if_pos own, if_neg own', tuple there own] at same
      exact absurd same.symm (new y there')
  · by_cases own' : y.handle = b.handle
    · rw [if_neg own, if_pos own', tuple there' own'] at same
      exact absurd same (new x there)
    · rw [if_neg own] at bound same
      rw [if_neg own'] at same
      rw [if_neg own, if_neg own']
      exact unique x there y there' bound same

theorem ZonesUnique.step (unique : r.ZonesUnique) (wellFormed : WellFormed nameHash r)
    (op : RegistryOp)
    : (BoxRegistry.step nameHash op r).ZonesUnique := by
  cases zoneStep_step nameHash r op with
  | kept zones => exact unique.of_zonesKept zones
  | added b unbound _ boxes =>
      refine unique.of_earlier fun c member bound => ?_
      rw [boxes, List.mem_append, List.mem_singleton] at member
      rcases member with old | rfl
      · exact ⟨c, old, rfl, rfl⟩
      · exact absurd unbound bound
  | evicted registry =>
      refine unique.of_earlier fun c member _ => ?_
      rw [registry] at member
      exact ⟨c, (mem_evictStale.mp member).1, rfl, rfl⟩
  | freed _ registry =>
      refine unique.of_earlier fun c member bound => ?_
      rw [registry] at member
      obtain ⟨b, there, rfl⟩ := mem_update.mp member
      split_ifs at bound ⊢
      · exact absurd rfl bound
      · exact ⟨b, there, rfl, rfl⟩
  | bound b member unbound clientPort serverPort ports new zones =>
      refine (unique.bind new fun x there same => ?_).of_zonesKept zones
      rw [wellFormed.eq_of_handle there member same]

theorem zonesUnique_of_reachable {allowed : BoxRegistry → RegistryOp → Prop}
    (reachable : Reachable nameHash allowed r)
    : r.ZonesUnique := by
  have both : WellFormed nameHash r ∧ r.ZonesUnique := by
    refine reachable.invariant (I := fun s => WellFormed nameHash s ∧ s.ZonesUnique)
      ⟨wellFormed_empty, by simp [ZonesUnique, empty]⟩ ?_
    exact fun s op _ both => ⟨both.1.step op, both.2.step both.1 op⟩
  exact both.2

-----------------------------------------------------------------------------------------
-- A bound box stays bound
-----------------------------------------------------------------------------------------

/-- The box under the handle has the zone tuple. -/
def BoundTo (r : BoxRegistry) (h : Handle) (tuple : UInt32 × UInt16 × UInt16) : Prop :=
  ∃ b ∈ r.boxes, b.handle = h ∧ b.zoneTuple = tuple

/-- The box under the handle neither receives an announcement nor is reaped. -/
def KeepsBinding (h : Handle) (r : BoxRegistry) : RegistryOp → Prop
  | .zoneServerInfo h' packet _ => h' = h → ¬ Recognises packet
  | .evictStale nowMs ttlMs => ∀ b ∈ r.boxes, b.handle = h → r.Spares nowMs ttlMs b
  | _ => True

theorem BoundTo.of_zonesKept {h : Handle} {tuple : UInt32 × UInt16 × UInt16}
    (bound : r.BoundTo h tuple) {t : BoxRegistry} (kept : r.ZonesKept t)
    : t.BoundTo h tuple := by
  obtain ⟨b, member, handle, own⟩ := bound
  obtain ⟨g, boxes, same⟩ := kept
  obtain ⟨handle', zone'⟩ := same b member
  refine ⟨g b, ?_, handle'.trans handle, (congrArg Prod.fst zone').trans own⟩
  rw [boxes]
  exact List.mem_map_of_mem member

/-- A write to another box leaves the binding. -/
theorem BoundTo.update {h other : Handle} {tuple : UInt32 × UInt16 × UInt16}
    (bound : r.BoundTo h tuple) (apart : h ≠ other) (f : Box → Box)
    : (r.update other f).BoundTo h tuple := by
  obtain ⟨b, member, handle, own⟩ := bound
  refine ⟨b, mem_update.mpr ⟨b, member, ?_⟩, handle, own⟩
  rw [if_neg (handle ▸ apart)]

theorem BoundTo.step {h : Handle} {tuple : UInt32 × UInt16 × UInt16}
    (bound : r.BoundTo h tuple) (port : tuple.2.1 ≠ 0) (wellFormed : WellFormed nameHash r)
    {op : RegistryOp} (keeps : KeepsBinding h r op)
    : (BoxRegistry.step nameHash op r).BoundTo h tuple := by
  cases zoneStep_step nameHash r op with
  | kept zones => exact bound.of_zonesKept zones
  | added b _ _ boxes =>
      obtain ⟨c, member, there⟩ := bound
      refine ⟨c, ?_, there⟩
      rw [boxes]
      exact List.mem_append_left _ member
  | evicted registry =>
      obtain ⟨c, member, handle, own⟩ := bound
      rw [registry]
      exact ⟨c, mem_evictStale.mpr ⟨member, keeps c member handle⟩, handle, own⟩
  | freed recognised registry =>
      rw [registry]
      exact bound.update (fun same => keeps same.symm recognised) _
  | bound b member unbound clientPort serverPort ports new zones =>
      refine (bound.update ?_ _).of_zonesKept zones
      rintro rfl
      obtain ⟨c, there, handle, own⟩ := bound
      rw [wellFormed.eq_of_handle there member handle] at own
      exact port (own ▸ unbound)

theorem BoundTo.reaches {h : Handle} {tuple : UInt32 × UInt16 × UInt16}
    (bound : r.BoundTo h tuple) (port : tuple.2.1 ≠ 0) (wellFormed : WellFormed nameHash r)
    {t : BoxRegistry} (later : Machine.Reaches (BoxRegistry.step nameHash) (KeepsBinding h) r t)
    : t.BoundTo h tuple := by
  have both : WellFormed nameHash t ∧ t.BoundTo h tuple := by
    refine later.invariant (I := fun s => WellFormed nameHash s ∧ s.BoundTo h tuple)
      ⟨wellFormed, bound⟩ ?_
    exact fun s op keeps both => ⟨both.1.step op, both.2.step port both.1 keeps⟩
  exact both.2

/-- A tuple that one box is bound to is looked up as that box. -/
theorem BoundTo.lookupBoundZone {h : Handle} {tuple : UInt32 × UInt16 × UInt16}
    (bound : r.BoundTo h tuple) (port : tuple.2.1 ≠ 0) (unique : r.ZonesUnique)
    : ∃ b, r.lookupBoundZone tuple.1 tuple.2.1 tuple.2.2 = some b ∧ b.handle = h := by
  obtain ⟨c, member, handle, own⟩ := bound
  cases found : r.lookupBoundZone tuple.1 tuple.2.1 tuple.2.2 with
  | none => exact absurd own (lookupBoundZone_eq_none.mp found c member)
  | some b =>
      obtain ⟨there, same⟩ := of_lookupBoundZone found
      refine ⟨b, rfl, ?_⟩
      rw [← handle]
      have ports : b.zoneClientPort = tuple.2.1 := congrArg (·.2.1) same
      exact unique b there c member (ports ▸ port) (same.trans own.symm)

/-- A packet of the tuple from the client. -/
theorem BoundTo.route_toServer {h : Handle} {packet : ZonePacket}
    (bound : r.BoundTo h (packet.srcIp, packet.srcPort, packet.dstPort))
    (port : packet.srcPort ≠ 0) (unique : r.ZonesUnique) (clientAddr : UInt32) (nowMs : Int)
    : (r.dispatchZone clientAddr packet nowMs).1 = .zoneStreams ⟨h, true⟩ := by
  obtain ⟨b, found, handle⟩ := bound.lookupBoundZone port unique
  simp only [dispatchZone, pickBox, found, handle]

/-- A packet of the tuple from a server that is no client. -/
theorem BoundTo.route_toClient {h : Handle} {packet : ZonePacket}
    (bound : r.BoundTo h (packet.dstIp, packet.dstPort, packet.srcPort))
    (port : packet.dstPort ≠ 0) (unique : r.ZonesUnique)
    (server : r.hasClient packet.srcIp = false) (clientAddr : UInt32) (nowMs : Int)
    : (r.dispatchZone clientAddr packet nowMs).1 = .zoneStreams ⟨h, false⟩ := by
  obtain ⟨b, found, handle⟩ := bound.lookupBoundZone port unique
  have other : r.lookupBoundZone packet.srcIp packet.srcPort packet.dstPort = none := by
    refine lookupBoundZone_eq_none.mpr fun c member same => ?_
    have client := List.any_eq_false.mp server c member
    simp only [Box.zoneTuple, Prod.mk.injEq] at same
    simp [same.1] at client
  simp only [dispatchZone, pickBox, other, found, handle]

/-- A sweep never reaps the primary box. -/
theorem WellFormed.evictStale_primary (wellFormed : WellFormed nameHash r)
    {first : Box} {rest : List Box} (boxes : r.boxes = first :: rest) (nowMs ttlMs : Int)
    : first ∈ (r.evictStale nowMs ttlMs).boxes := by
  refine mem_evictStale.mpr ⟨by simp [boxes], Or.inr (not_isVictim_of_isPrimary ?_)⟩
  have primary := wellFormed.primaryFirst
  rw [boxes] at primary
  exact primary.1

/-- In every reachable registry world triples are distinct; of its boxes, if there are any,
exactly the first is primary and no sweep reaps it; no two bound boxes share a zone tuple;
and a packet of a bound tuple goes to its box, in the right direction, for as long as the box
neither receives an announcement nor is reaped.
-/
theorem routing_by_tuple (nameHash : String → UInt64)
    {allowed : BoxRegistry → RegistryOp → Prop} {r : BoxRegistry}
    (reachable : Reachable nameHash allowed r)
    : (r.boxes.map Box.worldTuple).Nodup
      ∧ (r.boxes ≠ [] →
        ∃ first rest,
          r.boxes = first :: rest
            ∧ first.isPrimary = true
            ∧ (∀ b ∈ rest, b.isPrimary = false)
            ∧ ∀ nowMs ttlMs, first ∈ (r.evictStale nowMs ttlMs).boxes)
      ∧ (∀ b ∈ r.boxes, ∀ c ∈ r.boxes,
        b.zoneClientPort ≠ 0 → b.zoneTuple = c.zoneTuple → b = c)
      ∧ ∀ b ∈ r.boxes, b.zoneClientPort ≠ 0 →
        ∀ t, Machine.Reaches (step nameHash) (KeepsBinding b.handle) r t →
          ∀ clientAddr packet nowMs,
            (b.zoneTuple = (packet.srcIp, packet.srcPort, packet.dstPort) →
              (t.dispatchZone clientAddr packet nowMs).1 = .zoneStreams ⟨b.handle, true⟩)
              ∧ (b.zoneTuple = (packet.dstIp, packet.dstPort, packet.srcPort) →
                t.hasClient packet.srcIp = false →
                (t.dispatchZone clientAddr packet nowMs).1 = .zoneStreams ⟨b.handle, false⟩) := by
  have wellFormed := wellFormed_of_reachable reachable
  have unique := zonesUnique_of_reachable reachable
  refine ⟨wellFormed.worldTuples, fun nonempty => ?_, ?_, ?_⟩
  · obtain ⟨first, rest, boxes⟩ := List.exists_cons_of_ne_nil nonempty
    have primary := wellFormed.primaryFirst
    rw [boxes] at primary
    exact ⟨first, rest, boxes, primary.1, primary.2, wellFormed.evictStale_primary boxes⟩
  · intro b first c second bound same
    exact wellFormed.eq_of_handle first second (unique b first c second bound same)
  · intro b member bound t later clientAddr packet nowMs
    have still : t.BoundTo b.handle b.zoneTuple :=
      BoundTo.reaches ⟨b, member, rfl, rfl⟩ bound wellFormed later
    have distinct : t.ZonesUnique := by
      have both : WellFormed nameHash t ∧ t.ZonesUnique := by
        refine later.invariant (I := fun s => WellFormed nameHash s ∧ s.ZonesUnique)
          ⟨wellFormed, unique⟩ ?_
        exact fun s op _ both => ⟨both.1.step op, both.2.step both.1 op⟩
      exact both.2
    constructor
    · intro tuple
      simp only [Box.zoneTuple, Prod.mk.injEq] at tuple
      refine BoundTo.route_toServer ?_ (tuple.2.1 ▸ bound) distinct clientAddr nowMs
      rwa [← tuple.1, ← tuple.2.1, ← tuple.2.2]
    · intro tuple server
      simp only [Box.zoneTuple, Prod.mk.injEq] at tuple
      refine BoundTo.route_toClient ?_ (tuple.2.1 ▸ bound) distinct server clientAddr nowMs
      rwa [← tuple.1, ← tuple.2.1, ← tuple.2.2]

/-- A zone session of the second of two boxes. -/
def zoneSession : List RegistryOp :=
  twoBoxes
    ++ [.zoneServerInfo 1
          ⟨List.replicate 128 0 ++ [0x58, 0x1b], 130, DIR_Server, some "OP_ZoneServerInfo"⟩ 30,
        .zonePacket 0x0a0d0008 ⟨0x0a0d0008, 0x0a0d00ce, 5000, 7000, OP_SessionRequest⟩ 40]

theorem routing_by_tuple_secondBox
    : ((Machine.exec (step sampleHash) empty zoneSession).dispatchZone 0x0a0d0008
          ⟨0x0a0d00ce, 0x0a0d0008, 7000, 5000, OP_Packet⟩ 50).1
        = .zoneStreams ⟨1, false⟩ := by
  have reachable : Reachable sampleHash (fun _ op => Known sampleNames op)
      (Machine.exec (step sampleHash) empty zoneSession) :=
    reachable_exec (by decide)
  have routed := (routing_by_tuple sampleHash reachable).2.2.2
    (((Machine.exec (step sampleHash) empty zoneSession).box? 1).get (by decide)) (by decide)
    (by decide) _ .start 0x0a0d0008 ⟨0x0a0d00ce, 0x0a0d0008, 7000, 5000, OP_Packet⟩ 50
  exact routed.2 (by decide) (by decide)

/-- Before the first world packet there is no primary box. -/
theorem routing_by_tuple_noBox
    : Reachable sampleHash (fun _ _ => True) empty ∧ ¬ ∃ b ∈ empty.boxes, b.isPrimary = true :=
  ⟨.start, by decide⟩

end BoxRegistry
end Scry
