import Scry.Capture.EQPacket
import Scry.Registry.Attribution

/-! The zone session of a box among others. While a box stays bound to a session, its zone streams
are called with the packets of that session and with nothing else, whatever else is captured, so
that what they go through is a run of their own.
-/

namespace Scry

namespace BoxRegistry

variable {nameHash : String → UInt64} {r : BoxRegistry}

-----------------------------------------------------------------------------------------
-- The primary box
-----------------------------------------------------------------------------------------

theorem primary_update {k h : Handle} {f : Box → Box} (same : ∀ b : Box, b.SameIdentity (f b))
    (primary : (k, true) ∈ r.sessions)
    : (k, true) ∈ (r.update h f).sessions := by
  rw [sessions_update fun b => (same b).toSameSession]
  exact primary

theorem primary_observe {k : Handle} (primary : (k, true) ∈ r.sessions)
    (clientIp serverIp : UInt32) (clientPort serverPort : UInt16) (nowMs : Int)
    : (k, true) ∈ (r.observe clientIp serverIp clientPort serverPort nowMs).sessions := by
  unfold observe
  split
  · exact primary_update (sameIdentity_observed serverIp nowMs) primary
  · simp only [sessions, append, List.map_append]
    exact List.mem_append_left _ primary

theorem primary_evictStale {k : Handle} (primary : (k, true) ∈ r.sessions) (nowMs ttlMs : Int)
    : (k, true) ∈ (r.evictStale nowMs ttlMs).sessions := by
  obtain ⟨b, member, same⟩ := List.mem_map.mp primary
  obtain ⟨handle, flag⟩ := Prod.mk.inj same
  refine List.mem_map.mpr ⟨b, mem_evictStale.mpr ⟨member, Or.inr ?_⟩, same⟩
  exact not_isVictim_of_isPrimary flag

/-- The primary box is never lost. -/
theorem primary_step {k : Handle} (primary : (k, true) ∈ r.sessions) (op : RegistryOp)
    : (k, true) ∈ (step nameHash op r).sessions := by
  have touch (s : BoxRegistry) (h : Handle) (f : Box → Box)
      (same : ∀ b : Box, b.SameIdentity (f b)) (there : (k, true) ∈ s.sessions)
      : (k, true) ∈ (s.update h f).sessions :=
    primary_update same there
  cases op with
  | observe clientIp serverIp clientPort serverPort nowMs =>
      exact primary_observe primary clientIp serverIp clientPort serverPort nowMs
  | enterWorld h packet =>
      simp only [step, sessions_onDecodedPacket]
      exact primary
  | promoteByName h name =>
      simp only [step, sessions_promoteByName]
      exact primary
  | setActiveCharacterId id =>
      simp only [step, sessions_setActiveCharacterId]
      exact primary
  | evictStale nowMs ttlMs => exact primary_evictStale primary nowMs ttlMs
  | zoneServerInfo h packet nowMs =>
      exact announce_invariant (I := fun s => (k, true) ∈ s.sessions) touch primary h packet nowMs
  | zonePacket clientAddr packet nowMs =>
      exact dispatchZone_invariant (I := fun s => (k, true) ∈ s.sessions) touch primary clientAddr
        packet nowMs

-----------------------------------------------------------------------------------------
-- A box with a zone session of its own
-----------------------------------------------------------------------------------------

/-- In a well-formed registry a box that is not the primary one is bound to a zone session. -/
structure ZoneSettled (nameHash : String → UInt64) (h : Handle) (tuple : UInt32 × UInt16 × UInt16)
    (r : BoxRegistry) : Prop where
  wellFormed : WellFormed nameHash r
  unique : r.ZonesUnique
  bound : r.BoundTo h tuple
  port : tuple.2.1 ≠ 0
  secondary : ∃ k, k ≠ h ∧ (k, true) ∈ r.sessions

variable {h : Handle} {tuple : UInt32 × UInt16 × UInt16}

theorem ZoneSettled.step (settled : ZoneSettled nameHash h tuple r) {op : RegistryOp}
    (keeps : KeepsBinding h r op)
    : ZoneSettled nameHash h tuple (step nameHash op r) where
  wellFormed := settled.wellFormed.step op
  unique := settled.unique.step settled.wellFormed op
  bound := settled.bound.step settled.port settled.wellFormed keeps
  port := settled.port
  secondary := by
    obtain ⟨k, apart, primary⟩ := settled.secondary
    exact ⟨k, apart, primary_step primary op⟩

/-- Its streams are its own. -/
theorem ZoneSettled.ownerOf (settled : ZoneSettled nameHash h tuple r) (own : Handle → StreamOwner)
    : r.ownerOf own h = own h := by
  refine if_neg fun any => ?_
  obtain ⟨b, found, flag⟩ := (Option.any_eq_true _ _).mp any
  obtain ⟨k, apart, primary⟩ := settled.secondary
  obtain ⟨member, handle⟩ := of_box? found
  obtain ⟨c, there, same⟩ := List.mem_map.mp primary
  obtain ⟨handle', flag'⟩ := Prod.mk.inj same
  have first := settled.wellFormed.primaryFirst
  cases boxes : r.boxes with
  | nil => simp [boxes] at member
  | cons head rest =>
      rw [boxes] at first member there
      have isHead {x : Box} (present : x ∈ head :: rest) (is : x.isPrimary = true) : x = head := by
        rcases List.mem_cons.mp present with rfl | later
        · rfl
        · rw [first.2 x later] at is
          cases is
      rw [isHead member flag] at handle
      rw [isHead there flag'] at handle'
      exact apart (handle'.symm.trans handle)

/-- A packet of the session goes to the box. -/
theorem ZoneSettled.toServer (settled : ZoneSettled nameHash h tuple r) (packet : ZonePacket)
    (session : (packet.srcIp, packet.srcPort, packet.dstPort) = tuple) (clientAddr : UInt32)
    (nowMs : Int)
    : (r.dispatchZone clientAddr packet nowMs).1 = .zoneStreams ⟨h, true⟩ := by
  have port := settled.port
  rw [← session] at port
  exact BoundTo.route_toServer (session ▸ settled.bound) port settled.unique clientAddr nowMs

theorem ZoneSettled.toClient (settled : ZoneSettled nameHash h tuple r) (packet : ZonePacket)
    (session : (packet.dstIp, packet.dstPort, packet.srcPort) = tuple)
    (server : r.hasClient packet.srcIp = false) (clientAddr : UInt32) (nowMs : Int)
    : (r.dispatchZone clientAddr packet nowMs).1 = .zoneStreams ⟨h, false⟩ := by
  have port := settled.port
  rw [← session] at port
  exact BoundTo.route_toClient (session ▸ settled.bound) port settled.unique server clientAddr
    nowMs

/-- What goes to a box was matched with it. -/
theorem pickBox_of_dispatchZone {clientAddr : UInt32} {packet : ZonePacket} {nowMs : Int}
    {route : Route} (sent : (r.dispatchZone clientAddr packet nowMs).1 = .zoneStreams route)
    : (r.pickBox packet nowMs).1 = some route := by
  unfold dispatchZone at sent
  split at sent
  · next found picked result =>
      rw [result]
      exact congrArg some (Destination.zoneStreams.inj sent)
  · split at sent <;> cases sent

/-- No other packet does. -/
theorem ZoneSettled.elsewhere (settled : ZoneSettled nameHash h tuple r) (packet : ZonePacket)
    (notFrom : (packet.srcIp, packet.srcPort, packet.dstPort) ≠ tuple)
    (notTo : (packet.dstIp, packet.dstPort, packet.srcPort) ≠ tuple) (clientAddr : UInt32)
    (nowMs : Int) {route : Route}
    (sent : (r.dispatchZone clientAddr packet nowMs).1 = .zoneStreams route)
    : route.box ≠ h := by
  rintro rfl
  obtain ⟨c, present, handle, own⟩ := settled.bound
  have claims {b : Box} {srcIsClient : Bool} (member : b ∈ r.boxes)
      (same : some (Route.mk b.handle srcIsClient) = some route) : b = c := by
    have is : b.handle = route.box := congrArg Route.box (Option.some.inj same)
    exact settled.wellFormed.eq_of_handle member present (is.trans handle.symm)
  have busy : c.zoneClientPort ≠ 0 := by
    have port := settled.port
    rw [← own] at port
    exact port
  have matched := pickBox_of_dispatchZone sent
  rcases r.pickBox_cases packet nowMs with
    ⟨b, member, session, picked⟩ | ⟨b, member, session, picked⟩
      | ⟨-, -, ⟨b, member, unbound, -, picked⟩ | ⟨b, member, unbound, -, picked⟩ | picked⟩
  all_goals rw [picked] at matched
  · rw [claims member matched] at session
    exact notFrom (session.symm.trans own)
  · rw [claims member matched] at session
    exact notTo (session.symm.trans own)
  · exact busy (claims member matched ▸ unbound)
  · exact busy (claims member matched ▸ unbound)
  · cases matched

theorem ZoneSettled.observed (settled : ZoneSettled nameHash h tuple r) (p : UdpPacket)
    (nowMs : Int)
    : ZoneSettled nameHash h tuple (r.observed p nowMs) := by
  unfold BoxRegistry.observed
  split
  · have keeps : KeepsBinding h r (.observe p.header.destIP p.header.sourceIP p.header.destPort
        p.header.sourcePort nowMs) := trivial
    exact settled.step keeps
  · split
    · have keeps : KeepsBinding h r (.observe p.header.sourceIP p.header.destIP
          p.header.sourcePort p.header.destPort nowMs) := trivial
      exact settled.step keeps
    · exact settled

theorem ZoneSettled.zonePacket (settled : ZoneSettled nameHash h tuple r) (clientAddr : UInt32)
    (packet : ZonePacket) (nowMs : Int)
    : ZoneSettled nameHash h tuple (r.dispatchZone clientAddr packet nowMs).2 := by
  have keeps : KeepsBinding h r (.zonePacket clientAddr packet nowMs) := trivial
  exact settled.step keeps

/-- Zone traffic is not shown to the registry. -/
theorem observed_of_isZone {p : UdpPacket} (zone : p.isZone = true) (nowMs : Int)
    : r.observed p nowMs = r := by
  simp only [UdpPacket.isZone, UdpPacket.hasPort, Bool.and_eq_true, Bool.not_eq_true',
    Bool.or_eq_false_iff] at zone
  rw [BoxRegistry.observed, zone.2.2, zone.2.1]
  rfl

/-- Where zone traffic goes. -/
theorem dispatchPacket_of_isZone {p : UdpPacket} (zone : p.isZone = true) (clientAddr : UInt32)
    (nowMs : Int)
    : r.dispatchPacket clientAddr p nowMs
      = match r.dispatchZone clientAddr p.zonePacket nowMs with
        | (.zoneStreams route, after) =>
            (some (after.ownerOf .zone route.box, zoneStream route.srcIsClient), after)
        | (.globalStreams srcIsClient, after) =>
            (some (.globals, zoneStream srcIsClient), after)
        | (.dropped, after) => (none, after) := by
  have both := zone
  simp only [UdpPacket.isZone, Bool.and_eq_true, Bool.not_eq_true'] at both
  rw [dispatchPacket, observed_of_isZone zone, both.1, both.2]
  rfl

/-- Other traffic does not go to the zone streams of a box. -/
theorem ZoneSettled.dispatchPacket_notZone (settled : ZoneSettled nameHash h tuple r)
    {p : UdpPacket} (notZone : p.isZone = false) (clientAddr : UInt32) (nowMs : Int)
    : (∀ place ∈ (r.dispatchPacket clientAddr p nowMs).1, place.1 ≠ .zone h)
      ∧ ZoneSettled nameHash h tuple (r.dispatchPacket clientAddr p nowMs).2 := by
  have seen := settled.observed p nowMs
  have owner (h' : Handle) : (r.observed p nowMs).ownerOf .world h' ≠ .zone h := by
    unfold BoxRegistry.ownerOf
    split <;> simp
  unfold dispatchPacket
  cases passes : p.passesBy with
  | true => exact ⟨fun place there => absurd there (Option.not_mem_none place), seen⟩
  | false =>
      have world : p.hasPort UdpPacket.isWorldPort = true := by
        simpa [UdpPacket.isZone, passes] using notZone
      simp only [world, Bool.false_eq_true, if_false, if_true]
      refine ⟨fun place there => ?_, seen⟩
      unfold worldStream at there
      split at there
      all_goals
        obtain ⟨b, -, rfl⟩ := Option.map_eq_some_iff.mp there
        exact owner b.handle

end BoxRegistry

namespace EQPacket

open BoxRegistry (ZoneSettled KeepsBinding)

variable {nameHash : String → UInt64} {settings : EngineSettings}
variable {h : Handle} {tuple : UInt32 × UInt16 × UInt16} {r : BoxRegistry}

-----------------------------------------------------------------------------------------
-- The calls of a box's zone streams
-----------------------------------------------------------------------------------------

/-- The call that a packet is for the zone streams of a session's box. -/
def sessionCall (tuple : UInt32 × UInt16 × UInt16) (p : UdpPacket)
    : Option (EQStreamID × UdpPacket) :=
  if p.isZone then
    if p.fromClient = tuple then some (.client2zone, p)
    else if p.toClient = tuple then some (.zone2client, p)
    else none
  else none

/-- The packets that are captured. -/
def packets (ops : List EngineOp) : List UdpPacket :=
  ops.filterMap fun
    | .packet _ p _ => some p
    | .registry _ => none

/-- The calls that are made to the zone streams of a session's box. -/
def zoneCalls (tuple : UInt32 × UInt16 × UInt16) (ops : List EngineOp)
    : List (EQStreamID × UdpPacket) :=
  (packets ops).filterMap (sessionCall tuple)

theorem zoneCalls_append (tuple : UInt32 × UInt16 × UInt16) (first last : List EngineOp)
    : zoneCalls tuple (first ++ last) = zoneCalls tuple first ++ zoneCalls tuple last := by
  simp only [zoneCalls, packets, List.filterMap_append]

/-- An operation leaves the box its session, and what comes to the session's client comes from
none of the hosts that boxes run on.
-/
def Undisturbed (h : Handle) (tuple : UInt32 × UInt16 × UInt16) (r : BoxRegistry)
    : EngineOp → Prop
  | .packet _ p _ => p.toClient = tuple → r.hasClient p.header.sourceIP = false
  | .registry op => KeepsBinding h r op

instance (h : Handle) (r : BoxRegistry) : (op : RegistryOp) → Decidable (KeepsBinding h r op)
  | .zoneServerInfo h' packet _ =>
      inferInstanceAs (Decidable (h' = h → ¬ ZoneServerObserver.Recognises packet))
  | .evictStale nowMs ttlMs =>
      inferInstanceAs (Decidable (∀ b ∈ r.boxes, b.handle = h → r.Spares nowMs ttlMs b))
  | .observe .. | .enterWorld .. | .promoteByName .. | .setActiveCharacterId _ | .zonePacket .. =>
      inferInstanceAs (Decidable True)

instance (h : Handle) (tuple : UInt32 × UInt16 × UInt16) (r : BoxRegistry)
    : (op : EngineOp) → Decidable (Undisturbed h tuple r op)
  | .packet _ p _ =>
      inferInstanceAs (Decidable (p.toClient = tuple → r.hasClient p.header.sourceIP = false))
  | .registry op => inferInstanceAs (Decidable (KeepsBinding h r op))

/-- What an operation comes to for a box's zone streams. -/
theorem routed_zone (settled : ZoneSettled nameHash h tuple r) {op : EngineOp}
    (undisturbed : Undisturbed h tuple r op)
    : Traced.ofComponent (.zone h) (routed nameHash op r).1 = zoneCalls tuple [op]
      ∧ ZoneSettled nameHash h tuple (routed nameHash op r).2 := by
  cases op with
  | registry op => exact ⟨rfl, settled.step undisturbed⟩
  | packet clientAddr p nowMs =>
      have alone : zoneCalls tuple [.packet clientAddr p nowMs] = (sessionCall tuple p).toList := by
        simp only [zoneCalls, packets, List.filterMap_cons, List.filterMap_nil]
        cases sessionCall tuple p <;> rfl
      simp only [routed, alone, sessionCall]
      cases zone : p.isZone with
      | false =>
          obtain ⟨elsewhere, after⟩ := settled.dispatchPacket_notZone zone clientAddr nowMs
          refine ⟨?_, after⟩
          cases place : (r.dispatchPacket clientAddr p nowMs).1 with
          | none => rfl
          | some place' => simp [Traced.ofComponent, elsewhere place' place]
      | true =>
          rw [BoxRegistry.dispatchPacket_of_isZone zone]
          have after := settled.zonePacket clientAddr p.zonePacket nowMs
          rcases outcome : r.dispatchZone clientAddr p.zonePacket nowMs with ⟨dest, later⟩
          rw [outcome] at after
          by_cases source : p.fromClient = tuple
          · have sent := settled.toServer p.zonePacket source clientAddr nowMs
            rw [outcome] at sent
            obtain rfl : dest = .zoneStreams ⟨h, true⟩ := sent
            refine ⟨?_, after⟩
            simp [Traced.ofComponent, source, after.ownerOf, BoxRegistry.zoneStream]
          by_cases target : p.toClient = tuple
          · have sent := settled.toClient p.zonePacket target (undisturbed target) clientAddr nowMs
            rw [outcome] at sent
            obtain rfl : dest = .zoneStreams ⟨h, false⟩ := sent
            refine ⟨?_, after⟩
            simp [Traced.ofComponent, source, target, after.ownerOf, BoxRegistry.zoneStream]
          cases dest with
          | zoneStreams route =>
              have apart : route.box ≠ h :=
                settled.elsewhere p.zonePacket source target clientAddr nowMs
                  (congrArg Prod.fst outcome)
              have other : later.ownerOf .zone route.box ≠ .zone h := by
                unfold BoxRegistry.ownerOf
                split
                · simp
                · simpa using apart
              exact ⟨by simp [Traced.ofComponent, source, target, other], after⟩
          | globalStreams srcIsClient =>
              exact ⟨by simp [Traced.ofComponent, source, target], after⟩
          | dropped => exact ⟨by simp [Traced.ofComponent, source, target], after⟩

-----------------------------------------------------------------------------------------
-- Whole runs
-----------------------------------------------------------------------------------------

/-- The calls that operations come to. -/
def calls (nameHash : String → UInt64) : List EngineOp → BoxRegistry
    → List (StreamOwner × EQStreamID × UdpPacket)
  | [], _ => []
  | op :: rest, r => (routed nameHash op r).1 ++ calls nameHash rest (routed nameHash op r).2

/-- A run calls the streams as the registry says and does nothing else to them. -/
theorem calls_of_run {ops : List EngineOp} {e e' : EQPacket}
    {w : List (StreamOwner × EQStreamID × StreamEvent)}
    (ran : run nameHash settings ops e = .ok ((), e', w))
    : Traced.calls settings.handlePacket (calls nameHash ops e.boxes) e.streams
      = .ok ((), e'.streams, w) := by
  induction ops generalizing e w with
  | nil =>
      cases ran
      rfl
  | cons op rest ih =>
      obtain ⟨_, between, first, last, one, others, rfl⟩ := Traced.bind_eq_ok.mp ran
      have later := ih others
      unfold step at one
      dsimp only at one
      split at one
      · cases one
      · next own =>
          cases one
          exact Traced.forEach_append own later

/-- The registry's part of one operation. -/
def registryStep (nameHash : String → UInt64) (op : EngineOp) (r : BoxRegistry) : BoxRegistry :=
  (routed nameHash op r).2

theorem zone_calls {ops : List EngineOp} (settled : ZoneSettled nameHash h tuple r)
    (undisturbed : Machine.Permits (registryStep nameHash) (Undisturbed h tuple) r ops)
    : Traced.ofComponent (.zone h) (calls nameHash ops r) = zoneCalls tuple ops := by
  induction ops generalizing r with
  | nil => rfl
  | cons op rest ih =>
      obtain ⟨now, later⟩ := undisturbed
      obtain ⟨own, after⟩ := routed_zone settled now
      rw [calls, Traced.ofComponent_append, own, ih after later]
      exact (zoneCalls_append tuple [op] rest).symm

/-- What every operation of a registry keeps, an engine's registry keeps. -/
theorem routed_invariant {I : BoxRegistry → Prop}
    (keeps : ∀ s op, I s → I (BoxRegistry.step nameHash op s)) (holds : I r) (op : EngineOp)
    : I (routed nameHash op r).2 := by
  cases op with
  | registry op => exact keeps r op holds
  | packet clientAddr p nowMs =>
      have seen : I (r.observed p nowMs) := by
        unfold BoxRegistry.observed
        split
        · exact keeps r (.observe p.header.destIP p.header.sourceIP p.header.destPort
            p.header.sourcePort nowMs) holds
        · split
          · exact keeps r (.observe p.header.sourceIP p.header.destIP p.header.sourcePort
              p.header.destPort nowMs) holds
          · exact holds
      have after := keeps _ (.zonePacket clientAddr p.zonePacket nowMs) seen
      simp only [routed, BoxRegistry.dispatchPacket]
      split
      · exact seen
      · split
        · exact seen
        · rcases outcome : (r.observed p nowMs).dispatchZone clientAddr p.zonePacket nowMs
            with ⟨dest, later⟩
          simp only [BoxRegistry.step, outcome] at after
          cases dest <;> exact after

theorem boxes_of_run {ops : List EngineOp} {e e' : EQPacket}
    {w : List (StreamOwner × EQStreamID × StreamEvent)}
    (ran : run nameHash settings ops e = .ok ((), e', w))
    : e'.boxes = Machine.exec (registryStep nameHash) e.boxes ops := by
  induction ops generalizing e w with
  | nil =>
      cases ran
      rfl
  | cons op rest ih =>
      obtain ⟨_, between, first, last, one, others, rfl⟩ := Traced.bind_eq_ok.mp ran
      have later := ih others
      unfold step at one
      dsimp only at one
      split at one
      · cases one
      · cases one
        exact later

/-- In an engine that has run, a box that is bound and not the primary one is settled. -/
theorem settled_of_run {ops : List EngineOp} {e : EQPacket}
    {w : List (StreamOwner × EQStreamID × StreamEvent)}
    (ran : run nameHash settings ops (started settings) = .ok ((), e, w)) {b : Box}
    (member : b ∈ e.boxes.boxes) (own : b.isPrimary = false) (bound : b.zoneClientPort ≠ 0)
    : ZoneSettled nameHash b.handle b.zoneTuple e.boxes := by
  have both : BoxRegistry.WellFormed nameHash e.boxes ∧ e.boxes.ZonesUnique := by
    rw [boxes_of_run ran]
    refine Machine.exec_invariant
      (I := fun s => BoxRegistry.WellFormed nameHash s ∧ s.ZonesUnique)
      ⟨BoxRegistry.wellFormed_empty, by simp [BoxRegistry.ZonesUnique, BoxRegistry.empty]⟩
      (fun s op both => routed_invariant
        (I := fun s => BoxRegistry.WellFormed nameHash s ∧ s.ZonesUnique)
        (fun s op both => ⟨both.1.step op, both.2.step both.1 op⟩) both op) ops
  refine ⟨both.1, both.2, ⟨b, member, rfl, rfl⟩, bound, ?_⟩
  obtain ⟨first, rest, boxes⟩ := List.exists_cons_of_ne_nil (List.ne_nil_of_mem member)
  have flags := both.1.primaryFirst
  rw [boxes] at flags
  have primary : first.isPrimary = true := flags.1
  have there : first ∈ e.boxes.boxes := boxes ▸ List.mem_cons_self
  refine ⟨first.handle, fun same => ?_, List.mem_map.mpr ⟨first, there, by rw [primary]⟩⟩
  rw [both.1.eq_of_handle there member same, own] at primary
  cases primary

/-- A client's packet to a world server, and what a zone server and the client send each other. -/
def worldPacket (port : UInt16) (nowMs : Int) : EngineOp :=
  .packet 0 ⟨⟨0x0a0d0008, 0x0a0d00ce, port, 9000⟩, []⟩ nowMs

def clientPacket (port : UInt16) (datagram : Bytes) (nowMs : Int) : EngineOp :=
  .packet 0 ⟨⟨0x0a0d0008, 0x0a0d00ce, port, 7000⟩, datagram⟩ nowMs

def serverPacket (port : UInt16) (datagram : Bytes) (nowMs : Int) : EngineOp :=
  .packet 0 ⟨⟨0x0a0d00ce, 0x0a0d0008, 7000, port⟩, datagram⟩ nowMs

/-- A packet with a message, under session key 7. -/
def numberedMessage (i : Nat) : Bytes :=
  sequencedDatagram 0x09 (UInt16.ofNat i) [0x05, 0x06, UInt8.ofNat i] 7

/-- Streams that give up at 32 packets, and nothing to inflate. -/
def plainSettings : EngineSettings :=
  { arqSeqGiveUp := 32, sessionTracking := false, uncompress := fun _ _ => none, fuel := 50 }

/-- Two boxes on one host; the second one is told of a zone server and opens a session with it. -/
def secondZones : List EngineOp :=
  [worldPacket 4000 10, worldPacket 4001 20,
    .registry (.zoneServerInfo 1
      ⟨List.replicate 128 0 ++ [0x58, 0x1b], 130, DIR_Server, some "OP_ZoneServerInfo"⟩ 30),
    clientPacket 5000 (sessionRequestDatagram 9 512) 40,
    serverPacket 5000 (sessionResponseDatagram 9 7 512) 50]

/-- What is captured then: packets of the second box's session and of one that is no box's, and
another client's.
-/
def secondPlays : List EngineOp :=
  [serverPacket 5000 (numberedMessage 1) 60, serverPacket 6000 (numberedMessage 2) 70,
    .registry (.setActiveCharacterId .empty), clientPacket 5000 (numberedMessage 0) 80,
    worldPacket 4000 90, serverPacket 5000 (numberedMessage 0) 100]

end EQPacket
end Scry
