import Scry.Capture.BoxIsolation
import Scry.Capture.FrameBounds
import Scry.PacketStream.SequencedDelivery

/-! The whole way of a zone server's packets. An agent's bytes become frames, the frames wait in the
queue and become UDP packets, the packets go to the streams of their boxes, and what a server sends
to one of them is handed on in order, whatever the socket, the queue and the other sessions do.
-/

namespace Scry

-----------------------------------------------------------------------------------------
-- From a frame to a packet
-----------------------------------------------------------------------------------------

/-- Bytes copied from an address. -/
def Memory.read (data : Memory) (offset n : Nat) : Bytes :=
  List.ofFn fun i : Fin n => data (offset + i)

/-- What the dispatcher reads of a frame, from its IP header on. -/
def UdpPacket.ofBuffer (data : Memory) : UdpPacket :=
  let p := EQUDPIPPacketFormat.init data
  { header :=
      { sourceIP := eqntohuint32 (data.read 12 4)
        destIP := eqntohuint32 (data.read 16 4)
        sourcePort := eqntohuint16 (data.read p.udp 2)
        destPort := eqntohuint16 (data.read (p.udp + 2) 2) }
    datagram := data.read p.rawpayload p.rawpayloadSize.toNat }

/-- The packet of a frame that a turn of `processPackets` sees, in a buffer that held others before.
-/
def SeenFrame.packet (v : SeenFrame) (buffer : Memory) : UdpPacket :=
  .ofBuffer fun i => Memory.starting v.buffer buffer (sizeofEtherHeader + i)

/-- The packet of a frame. -/
def UdpPacket.ofFrame (frame : Bytes) : UdpPacket :=
  .ofBuffer fun i => frame[sizeofEtherHeader + i]?.getD 0

/-- A frame of UDP over IPv4 that the receive buffer holds: its headers and their lengths are
consistent, and the IP header has room for the addresses.
-/
structure CarriesUdp (frame : Bytes) : Prop where
  consistent : CapturedFrame.Consistent frame
  addresses : 20 ≤ CapturedFrame.headerLength frame
  fits : frame.length ≤ BUFSIZ

theorem Memory.read_congr {data data' : Memory} {total offset n : Nat}
    (same : ∀ i < total, data i = data' i) (inside : offset + n ≤ total)
    : data.read offset n = data'.read offset n := by
  refine List.ofFn_inj.mpr (funext fun i => same _ ?_)
  have bound := i.isLt
  omega

/-- Only what its headers say is the packet is read. -/
theorem UdpPacket.ofBuffer_congr {data data' : Memory}
    (same : ∀ i < CapturedFrame.totalAt data, data i = data' i)
    (addresses : 20 ≤ CapturedFrame.headerAt data)
    (payload : CapturedFrame.headerAt data + 8 ≤ CapturedFrame.totalAt data)
    : ofBuffer data = ofBuffer data' := by
  have fields : EQUDPIPPacketFormat.init data = EQUDPIPPacketFormat.init data' := by
    simp only [EQUDPIPPacketFormat.init, same 0 (by omega), same 2 (by omega), same 3 (by omega)]
  obtain ⟨total, raw, unwrapped⟩ := CapturedFrame.init_lengths data
  have size := unwrapped.mpr payload
  have udp : (EQUDPIPPacketFormat.init data).udp + 8 = (EQUDPIPPacketFormat.init data).rawpayload :=
    rfl
  simp only [ofBuffer, ← fields]
  rw [Memory.read_congr same (by omega : 12 + 4 ≤ _),
    Memory.read_congr same (by omega : 16 + 4 ≤ _), Memory.read_congr same (by omega),
    Memory.read_congr same (by omega), Memory.read_congr same (by omega)]

/-- What the buffer held before does not show. -/
theorem CarriesUdp.packet_eq {frame : Bytes} (carries : CarriesUdp frame) {v : SeenFrame}
    (seen : v.buffer = frame) (buffer : Memory)
    : v.packet buffer = .ofFrame frame := by
  obtain ⟨⟨payload, inside⟩, addresses, fits⟩ := carries
  have whole : frame.length % 65536 = frame.length := by
    refine Nat.mod_eq_of_lt ?_
    have buffers : BUFSIZ = 8192 := rfl
    omega
  rw [whole] at inside
  have ether : sizeofEtherHeader = 14 := rfl
  have field (i : Nat) (within : sizeofEtherHeader + i < frame.length)
      : Memory.starting frame buffer (sizeofEtherHeader + i)
        = frame[sizeofEtherHeader + i]?.getD 0 := by
    rw [Memory.starting, List.getElem?_eq_getElem within]
    rfl
  have lengths : CapturedFrame.headerAt
        (fun i => Memory.starting frame buffer (sizeofEtherHeader + i))
        = CapturedFrame.headerLength frame
      ∧ CapturedFrame.totalAt (fun i => Memory.starting frame buffer (sizeofEtherHeader + i))
        = CapturedFrame.totalLength frame := by
    simp only [CapturedFrame.headerAt, CapturedFrame.totalAt, field 0 (by omega),
      field 2 (by omega), field 3 (by omega)]
    exact ⟨rfl, rfl⟩
  rw [SeenFrame.packet, seen]
  refine UdpPacket.ofBuffer_congr (fun i below => field i ?_) ?_ ?_
  · rw [lengths.2] at below
    omega
  · rw [lengths.1]
    exact addresses
  · rw [lengths.1, lengths.2]
    exact payload

-----------------------------------------------------------------------------------------
-- From the queue to the engine
-----------------------------------------------------------------------------------------

namespace Capture

/-- The frames that are put into the queue. -/
def enqueues (ops : List CaptureOp) : List PacketCache :=
  ops.filterMap fun
    | .enqueue pc _ => some pc
    | _ => none

variable {c : Capture}

theorem enqueued_step (op : CaptureOp)
    : (Capture.step op c).enqueued = c.enqueued ++ enqueues [op] := by
  cases op with
  | enqueue pc admitted => rfl
  | processPackets => exact (List.append_nil _).symm
  | getPacket =>
      have same : c.getPacket.enqueued = c.enqueued := by
        cases busy : c.busyDecoding with
        | false => rw [getPacket_idle busy]
        | true =>
            cases next : c.queue.cache with
            | nil => rw [getPacket_nil busy next]
            | cons pc rest =>
                rw [getPacket_cons busy next]
                split <;> rfl
      exact same.trans (List.append_nil _).symm

theorem enqueued_exec (ops : List CaptureOp)
    : (Machine.exec Capture.step c ops).enqueued = c.enqueued ++ enqueues ops := by
  induction ops generalizing c with
  | nil => exact (List.append_nil _).symm
  | cons op rest ih =>
      rw [Machine.exec, ih, enqueued_step, List.append_assoc]
      congr 1
      simp only [enqueues, ← List.filterMap_append, List.singleton_append]

/-- Where all frames fit, each that is taken does. -/
theorem History.permits_fitsBuffer (history : c.History) {ops : List CaptureOp}
    (fits : ∀ pc ∈ c.enqueued ++ enqueues ops, pc.data.length ≤ BUFSIZ)
    : Machine.Permits Capture.step FitsBuffer c ops := by
  induction ops generalizing c with
  | nil => trivial
  | cons op rest ih =>
      refine ⟨?_, ih (history.step op) fun pc member => fits pc ?_⟩
      · cases op with
        | enqueue pc admitted => trivial
        | processPackets => trivial
        | getPacket =>
            intro _ pc next
            obtain ⟨taken, enqueued, -⟩ := history.taken
            refine fits pc (List.mem_append_left _ ?_)
            rw [enqueued]
            exact List.mem_append_right _ (List.mem_of_mem_head? next)
      · rw [enqueued_step, List.append_assoc] at member
        have both : enqueues (op :: rest) = enqueues [op] ++ enqueues rest := by
          simp only [enqueues, ← List.filterMap_append, List.singleton_append]
        rwa [both]

/-- A drained queue has shown every frame, in order and in full. -/
theorem seen_of_drained {ops : List CaptureOp}
    (fits : ∀ pc ∈ enqueues ops, pc.data.length ≤ BUFSIZ)
    (drained : (Machine.exec Capture.step started ops).queue.cache = [])
    : (Machine.exec Capture.step started ops).seen.map (·.buffer)
      = (enqueues ops).map (·.data) := by
  have intact := (history_started.intact_exec_iff ops).mpr
    ⟨intact_started, history_started.permits_fitsBuffer fits⟩
  obtain ⟨taken, enqueued, seen⟩ := intact.frames
  rw [enqueued_exec, drained, List.append_nil] at enqueued
  have buffers := congrArg (List.map fun view : Int × Bytes × Int => view.2.1) seen
  rw [List.map_map, List.map_map] at buffers
  rw [show enqueues ops = taken from enqueued]
  exact buffers

end Capture

namespace EQPacket

open BoxRegistry (ZoneSettled)
open RemoteCapture (StartsEnvelope Carries session delivered)

variable {nameHash : String → UInt64} {settings : EngineSettings}

-----------------------------------------------------------------------------------------
-- One stream of an owner
-----------------------------------------------------------------------------------------

variable {owner : StreamOwner} {j : EQStreamID} {streams later : EQStreamID → EQPacketStream}
variable {w : List (EQStreamID × StreamEvent)}

/-- The packets for one of an owner's streams. -/
def packetsFor (j : EQStreamID) (list : List (EQStreamID × UdpPacket)) : List UdpPacket :=
  Traced.ofComponent j list

/-- Nothing that is recorded is passed on to a stream. -/
def Quiet (owner : StreamOwner) (j : EQStreamID) (w : List (EQStreamID × StreamEvent)) : Prop :=
  ∀ e ∈ w, Traced.ofComponent j (owner.relayed e) = []

theorem ofComponent_flatMap_relayed {seen : List (EQStreamID × StreamEvent)}
    (quiet : Quiet owner j seen)
    : Traced.ofComponent j (seen.flatMap owner.relayed) = [] := by
  induction seen with
  | nil => rfl
  | cons e rest ih =>
      rw [List.flatMap_cons, Traced.ofComponent_append, quiet e List.mem_cons_self,
        ih fun e' member => quiet e' (List.mem_cons_of_mem e member)]
      rfl

/-- A stream that nothing is passed on to sees of a call what the call has for it. -/
theorem handlePacket_project {call : EQStreamID × UdpPacket}
    (ran : settings.handlePacket owner call streams = .ok ((), later, w))
    (quiet : Quiet owner j w)
    : EQPacketStream.run (settings.context owner) settings.fuel
        ((packetsFor j [call]).map fun p => .packet p.header p.datagram) (streams j)
      = .ok ((), later j, Traced.ofComponent j w) := by
  obtain ⟨⟨_, seen⟩, between, first, last, handled, relayed, rfl⟩ := Traced.bind_eq_ok.mp ran
  obtain ⟨own, rfl⟩ := Traced.listen_eq_ok.mp handled
  have here := Traced.calls_project own j
  have there := Traced.calls_project relayed j
  rw [ofComponent_flatMap_relayed fun e member => quiet e (List.mem_append_left _ member)] at there
  have still := Except.ok.inj there
  simp only [Prod.mk.injEq, true_and] at still
  rw [← still.1, Traced.ofComponent_append, ← still.2, List.append_nil]
  obtain ⟨id, p⟩ := call
  by_cases same : id = j
  · simpa [packetsFor, Traced.ofComponent, same, EQPacketStream.run] using here
  · simpa [packetsFor, Traced.ofComponent, same, EQPacketStream.run] using here

/-- So it does of a whole run. -/
theorem handlePackets_project {list : List (EQStreamID × UdpPacket)}
    (ran : Traced.forEach (settings.handlePacket owner) list streams = .ok ((), later, w))
    (quiet : Quiet owner j w)
    : EQPacketStream.run (settings.context owner) settings.fuel
        ((packetsFor j list).map fun p => .packet p.header p.datagram) (streams j)
      = .ok ((), later j, Traced.ofComponent j w) := by
  induction list generalizing streams w with
  | nil =>
      cases ran
      rfl
  | cons call rest ih =>
      obtain ⟨_, between, first, last, one, others, rfl⟩ := Traced.bind_eq_ok.mp ran
      have here := handlePacket_project one fun e member =>
        quiet e (List.mem_append_left _ member)
      have there := ih others fun e member => quiet e (List.mem_append_right _ member)
      have parts : packetsFor j (call :: rest) = packetsFor j [call] ++ packetsFor j rest :=
        Traced.ofComponent_append [call] rest
      rw [parts, List.map_append, Traced.ofComponent_append]
      exact Traced.forEach_append here there

-----------------------------------------------------------------------------------------
-- Delivery among others
-----------------------------------------------------------------------------------------

/-- Only a client that sends a session response passes something on to the stream that its server
sends on.
-/
theorem quiet_of_noResponse {h : Handle}
    (none : ∀ sessionId streamid key, (.client2zone, .sessionKey sessionId streamid key) ∉ w)
    : Quiet (.zone h) .zone2client w := by
  rintro ⟨id, event⟩ member
  cases event with
  | sessionKey sessionId streamid key =>
      cases id with
      | client2zone => exact absurd member (none sessionId streamid key)
      | client2world | world2client | zone2client => rfl
  | _ => rfl

/-- What a zone server sends to a box is handed on in order and once, however it arrives and
whatever other sessions, boxes and operations come between.
-/
theorem delivered_isolated (fills : FillsBuffer settings.uncompress)
    {earlier ops : List EngineOp} {e e' : EQPacket}
    {before w : List (StreamOwner × EQStreamID × StreamEvent)}
    (reached : run nameHash settings earlier (started settings) = .ok ((), e, before)) {b : Box}
    (member : b ∈ e.boxes.boxes) (own : b.isPrimary = false) (bound : b.zoneClientPort ≠ 0)
    (undisturbed
      : Machine.Permits (registryStep nameHash) (Undisturbed b.handle b.zoneTuple) e.boxes ops)
    (ran : run nameHash settings ops e = .ok ((), e', w))
    (empty : (e.streams (.zone b.handle) .zone2client).cache = .empty)
    (first : (e.streams (.zone b.handle) .zone2client).arqSeqExp = 0) {depth : Nat}
    (history : SenderHistory (settings.context (.zone b.handle))
      (e.streams (.zone b.handle) .zone2client) depth)
    (deep : depth < settings.fuel)
    (enough : (e.streams (.zone b.handle) .zone2client).arqSeqGiveUp.toNat ≤ settings.fuel)
    {arrivals : List (IPHeader × Nat)}
    (sent : packetsFor .zone2client (zoneCalls b.zoneTuple ops)
      = arrivals.map fun copy => ⟨copy.1, history.datagram copy.2⟩)
    (admissible : history.Admissible ∅ arrivals) (passes : ∀ copy ∈ arrivals, history.Passes copy)
    (noResponse : ∀ sessionId streamid key,
      (.zone b.handle, .client2zone, .sessionKey sessionId streamid key) ∉ w)
    : history.Delivered (arrivals.map Prod.snd).toFinset
        (e'.streams (.zone b.handle) .zone2client)
        (Traced.ofComponent .zone2client (Traced.ofComponent (.zone b.handle) w)) := by
  have isolated := zone_calls (settled_of_run reached member own bound) undisturbed
  have alone := Traced.calls_project (calls_of_run ran) (.zone b.handle)
  rw [isolated] at alone
  have quiet : Quiet (.zone b.handle) .zone2client (Traced.ofComponent (.zone b.handle) w) :=
    quiet_of_noResponse fun sessionId streamid key there =>
      noResponse sessionId streamid key (Traced.mem_ofComponent.mp there)
  have stream := handlePackets_project alone quiet
  rw [sent, List.map_map] at stream
  have tracks : history.Tracks ∅ (e.streams (.zone b.handle) .zone2client) := {
    session := rfl
    sent := fun i there => absurd there (Finset.notMem_empty i)
    near := by simp
    expects := by
      rw [InOrder.firstMissing_empty]
      exact first
    cached := by simp [empty]
    fragment := by simp
  }
  obtain ⟨t, v, completed, final, delivered⟩ := tracks.run fills admissible passes deep enough
  have same := Except.ok.inj (completed.symm.trans stream)
  simp only [Prod.mk.injEq, true_and] at same
  rw [Finset.empty_union] at final delivered
  rw [← same.1, ← same.2]
  exact ⟨by simpa using delivered, final.expects, final.cached⟩

/-- The packets that are made of the frames a drained queue has shown. -/
theorem packets_of_seen {seen : List SeenFrame} {sent : List UdpPacket} {frames : List Bytes}
    (taken : List.Forall₂ (fun v p => ∃ buffer, p = v.packet buffer) seen sent)
    (buffers : seen.map (·.buffer) = frames) (framed : ∀ frame ∈ frames, CarriesUdp frame)
    : sent = frames.map .ofFrame := by
  subst buffers
  induction taken with
  | nil => rfl
  | @cons v p rest others one _ ih =>
      obtain ⟨buffer, rfl⟩ := one
      rw [List.map_cons, List.map_cons,
        ← ih fun frame member => framed frame (List.mem_cons_of_mem _ member),
        (framed v.buffer List.mem_cons_self).packet_eq rfl buffer]

/-- The stream that the second box's zone server sends on, when its session has begun. -/
def sessionStream : EQPacketStream :=
  { EQPacketStream.fresh .zone2client DIR_Server 32 false with
    sessionId := 9
    sessionKey := 7
    maxLength := 512 }

/-- What it sends. -/
def sessionHistory {start : EQPacketStream} (begun : start = sessionStream)
    : SenderHistory (plainSettings.context (.zone 1)) start 1 where
  count := 3
  datagram := numberedMessage
  packet i := .ofDatagram (numberedMessage i)
  udp := by decide +kernel
  valid := by
    subst begun
    decide +kernel
  decoded := by
    subst begun
    decide +kernel
  numbered := by decide +kernel
  plain := by
    subst begun
    decide +kernel

/-- The second packet comes first. -/
def swapped : List (IPHeader × Nat) := [1, 0].map fun i => (⟨0x0a0d00ce, 0x0a0d0008, 7000, 5000⟩, i)

theorem admissible_swapped {start : EQPacketStream} (begun : start = sessionStream)
    : (sessionHistory begun).Admissible ∅ swapped := by
  subst begun
  have few (received : Finset Nat) (small : received.card < 32)
      : (InOrder.heldBack received).card < sessionStream.arqSeqGiveUp.toNat :=
    (InOrder.card_heldBack_le received).trans_lt small
  have missing (received : Finset Nat) (there : 0 ∉ received)
      : InOrder.firstMissing received = 0 :=
    InOrder.firstMissing_eq (by simp) there
  refine ⟨few ∅ (by decide), by decide, ?_, few {1} (by decide), by decide, ?_,
    few {0, 1} (by decide)⟩
  · rw [missing ∅ (by decide)]
    decide
  · rw [missing (insert 1 ∅) (by decide)]
    decide

theorem passes_swapped {start : EQPacketStream} (begun : start = sessionStream)
    : ∀ copy ∈ swapped, (sessionHistory begun).Passes copy := by
  subst begun
  have gates
      : ∀ copy ∈ swapped,
          sessionStream.latchedElsewhere copy.1 = false
            ∧ ((EQProtocolPacket.ofDatagram (numberedMessage copy.2)).hasCRC
              && (EQPacketStream.isIgnoredPort copy.1.sourcePort
                || EQPacketStream.isIgnoredPort copy.1.destPort)) = false := by
    decide +kernel
  exact fun copy member => ⟨by decide, (gates copy member).1, (gates copy member).2⟩

/-- No session key was recorded. -/
def keyless (w : List (StreamOwner × EQStreamID × StreamEvent)) : Bool :=
  w.all fun e =>
    match e.2.2 with
    | .sessionKey .. => false
    | _ => true

/-- A frame of a packet, the message that an agent sends of it, and the frame in the queue. -/
def frameOf (p : UdpPacket) : Bytes :=
  List.replicate sizeofEtherHeader 0
    ++ [0x45, 0] ++ networkBytes16 (UInt16.ofNat (28 + p.datagram.length))
    ++ [0, 0, 0, 0, 64, 17, 0, 0]
    ++ networkBytes32 p.header.sourceIP ++ networkBytes32 p.header.destIP
    ++ networkBytes16 p.header.sourcePort ++ networkBytes16 p.header.destPort
    ++ networkBytes16 (UInt16.ofNat (8 + p.datagram.length)) ++ [0, 0] ++ p.datagram

def frameMessage (p : UdpPacket) : RemoteCapture.Envelope where
  type := SEQ_TYPE_FRAME
  payload := List.replicate SEQ_FRAME_PREFIX 0 ++ (frameOf p).take 1000
  fits := by
    simp only [List.length_append, List.length_replicate, List.length_take, SEQ_MAX_PAYLOAD,
      SEQ_MAX_CAPLEN]
    omega

def enqueueFrame (p : UdpPacket) : CaptureOp :=
  .enqueue ⟨(frameOf p).take 1000, 0⟩ (by
    simp only [PacketCache.Admitted, frameOf, List.length_take, List.length_append,
      List.length_replicate, sizeofEtherHeader, SEQ_MAX_CAPLEN]
    omega)

/-- A Hello, and then the frames. -/
def secondMessages : List RemoteCapture.Envelope :=
  { type := SEQ_TYPE_HELLO, payload := [1, 0, 0, 0, 0, 4, 0, 0], fits := by decide }
    :: (packets secondPlays).map frameMessage

/-- The queue is drained twice. -/
def secondDrains : List CaptureOp :=
  ((packets secondPlays).take 2).map enqueueFrame ++ [.processPackets, .getPacket]
    ++ ((packets secondPlays).drop 2).map enqueueFrame
    ++ List.replicate 5 .getPacket ++ [.processPackets, .getPacket]

instance (frame : Bytes) : Decidable (CarriesUdp frame) :=
  decidable_of_iff
    ((CapturedFrame.headerLength frame + 8 ≤ CapturedFrame.totalLength frame
        ∧ sizeofEtherHeader + CapturedFrame.totalLength frame ≤ frame.length % 65536)
      ∧ 20 ≤ CapturedFrame.headerLength frame ∧ frame.length ≤ BUFSIZ)
    ⟨fun ⟨consistent, addresses, fits⟩ => ⟨consistent, addresses, fits⟩,
      fun ⟨consistent, addresses, fits⟩ => ⟨consistent, addresses, fits⟩⟩

end EQPacket
end Scry
