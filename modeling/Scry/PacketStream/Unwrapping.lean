import Mathlib.Logic.Relation
import Scry.PacketStream.WholeRecords

/-! Unwrapping at any depth.
A packet that is processed comes from the datagram through the inner packets of combined,
sequenced and completed ones, each processed in the state its predecessors left. The ranges
stay inside on the way exactly as long as each packet that is unwrapped holds whole records.
-/

namespace Scry
namespace EQPacketStream

variable {context : StreamContext}

/-- The state a packet's content is processed in. -/
def entered (s : EQPacketStream) (packet : EQProtocolPacket) : EQPacketStream :=
  if packet.netOp = OP_Packet then s.advanced
  else if packet.netOp = OP_Oversized then s.fragmented packet
  else s

/-- Processing a packet in a state comes to process an inner one in another state: behind the
items that stand before it.
-/
def Unwraps (context : StreamContext) (outer inner : EQPacketStream × EQProtocolPacket) : Prop :=
  ∃ earlier later fuel w,
    (outer.1.handed outer.2).map Handed.item = earlier ++ .subpacket inner.2 :: later
      ∧ Traced.forEach (perform fun packet => processPacket context fuel packet none) earlier
          (outer.1.entered outer.2)
        = .ok ((), inner.1, w)

/-- An inner packet at any depth, and the state it is processed in. -/
abbrev Unwrapped (context : StreamContext)
    : EQPacketStream × EQProtocolPacket → EQPacketStream × EQProtocolPacket → Prop :=
  Relation.ReflTransGen (Unwraps context)

/-- What a run records of processing and dispatching comes from an unwrapped packet: it is
that packet's visit, an item it hands on, or its own application opcode.
-/
def CameFrom (context : StreamContext) (start : EQPacketStream × EQProtocolPacket)
    : StreamEvent → Prop
  | .processing before packet => Unwrapped context start (before, packet)
  | .dispatchPacket call =>
      ∃ s packet,
        Unwrapped context start (s, packet)
          ∧ (.message call ∈ (s.handed packet).map Handed.item
            ∨ (IS_APP_OPCODE packet.netOp = true
              ∧ call = ⟨packet.netOp, packet.payload, packet.payloadLength.toNat⟩))
  | _ => True

/-- What comes from an inner packet comes from the outer one. -/
theorem CameFrom.outer {outer inner : EQPacketStream × EQProtocolPacket} {e : StreamEvent}
    (unwraps : Unwraps context outer inner) (came : CameFrom context inner e)
    : CameFrom context outer e := by
  cases e with
  | processing before packet => exact .head unwraps came
  | dispatchPacket call =>
      obtain ⟨s, packet, unwrapped, handed⟩ := came
      exact ⟨s, packet, .head unwraps unwrapped, handed⟩
  | skipping | advancing | fragmentCopy | completedOversized | sessionKey | closing
  | deletePacket => trivial

/-- The events that are neither a visit nor a dispatch. -/
def Silent : StreamEvent → Prop
  | .processing _ _ => False
  | .dispatchPacket _ => False
  | _ => True

theorem CameFrom.of_silent {start : EQPacketStream × EQProtocolPacket} {e : StreamEvent}
    (silent : Silent e)
    : CameFrom context start e := by
  cases e with
  | processing | dispatchPacket => exact silent.elim
  | skipping | advancing | fragmentCopy | completedOversized | sessionKey | closing
  | deletePacket => trivial

/-- A step that records nothing but events of a kind. -/
def Records (kind : StreamEvent → Prop) (_ : EQPacketStream) (w : List StreamEvent)
    (_ : EQPacketStream)
    : Prop :=
  ∀ e ∈ w, kind e

theorem records_of_chain {kind : StreamEvent → Prop} {s t : EQPacketStream}
    {w : List StreamEvent} (chain : Traced.Chain (Records kind) s w t)
    : ∀ e ∈ w, kind e := by
  induction chain with
  | refl => simp
  | tail _ last ih => exact fun e member => (List.mem_append.mp member).elim (ih e) (last e)

/-- A computation that neither visits nor dispatches. -/
abbrev IsSilent {α : Type} (m : StreamM α) : Prop := Traced.Stepwise (Records Silent) m

theorem silent_modify (f : EQPacketStream → EQPacketStream)
    : IsSilent (Traced.modify f : StreamM Unit) :=
  Traced.stepwise_modify fun _ => by simp [Records]

theorem silent_emit {e : StreamEvent} (silent : Silent e) : IsSilent (Traced.emit e) :=
  Traced.stepwise_emit fun _ => by simpa [Records] using silent

theorem silent_setCache (seq : UInt16) (packet : EQProtocolPacket)
    : IsSilent (setCache seq packet) := by
  refine Traced.stepwise_get.bind fun s => ?_
  split
  · exact silent_modify _
  · refine Traced.Stepwise.when ?_
    exact (silent_emit (by trivial)).bind fun _ => silent_modify _

theorem silent_resetCache : IsSilent resetCache := by
  refine Traced.stepwise_get.bind fun s => ?_
  refine (Traced.Stepwise.forEach fun seq _ => silent_emit (by trivial)).bind fun _ => ?_
  exact silent_modify _

theorem silent_latch (header : Option IPHeader) (port : IPHeader → UInt16)
    (ip : IPHeader → UInt32)
    : IsSilent (latch header port ip) := by
  cases header with
  | none => exact Traced.stepwise_fault _
  | some header => exact silent_modify _

theorem silent_sessionRequest (packet : EQProtocolPacket) (header : Option IPHeader)
    : IsSilent (processSessionRequest packet header) := by
  refine Traced.Stepwise.when ?_
  refine Traced.stepwise_get.bind fun s => ?_
  exact (silent_modify _).bind fun _ => Traced.Stepwise.when (silent_latch header _ _)

theorem silent_sessionResponse (packet : EQProtocolPacket) (header : Option IPHeader)
    : IsSilent (processSessionResponse packet header) := by
  refine Traced.Stepwise.when ?_
  refine Traced.stepwise_get.bind fun s => ?_
  refine (silent_modify _).bind fun _ => ?_
  exact (silent_emit (by trivial)).bind fun _ => Traced.Stepwise.when (silent_latch header _ _)

theorem silent_close (sessionId : UInt32) : IsSilent (close context sessionId) := by
  refine Traced.stepwise_get.bind fun s => ?_
  refine Traced.Stepwise.when ?_
  exact (silent_resetCache.bind fun _ => silent_modify _).bind fun _ => silent_modify _

theorem silent_sessionDisconnect (packet : EQProtocolPacket)
    : IsSilent (processSessionDisconnect context packet) := by
  refine Traced.stepwise_get.bind fun s => ?_
  refine Traced.Stepwise.when ?_
  refine (silent_modify _).bind fun _ => ?_
  refine silent_resetCache.bind fun _ => ?_
  refine (Traced.Stepwise.when (silent_modify _)).bind fun _ => ?_
  exact (silent_emit (by trivial)).bind fun _ => Traced.Stepwise.when (silent_close _)

/-- A loop over two lists runs over one and then the other. -/
theorem forEach_append {f : Item → StreamM Unit} {earlier later : List Item}
    {s t u : EQPacketStream} {w v : List StreamEvent}
    (first : Traced.forEach f earlier s = .ok ((), t, w))
    (second : Traced.forEach f later t = .ok ((), u, v))
    : Traced.forEach f (earlier ++ later) s = .ok ((), u, w ++ v) := by
  induction earlier generalizing s w with
  | nil =>
      cases first
      exact second
  | cons item rest ih =>
      obtain ⟨_, m, early, late, one, more, rfl⟩ := Traced.bind_eq_ok.mp first
      rw [List.append_assoc]
      exact Traced.bind_eq_ok.mpr ⟨_, m, early, late ++ v, one, ih more, rfl⟩

/-- What the items of a packet record comes from the packet, by induction on the items behind
those already processed.
-/
theorem forEach_cameFrom {fuel : Nat} (start : EQPacketStream × EQProtocolPacket)
    (inner
      : ∀ {packet s t w}, processPacket context fuel packet none s = .ok ((), t, w) →
          ∀ e ∈ w, CameFrom context (s, packet) e)
    {earlier items : List Item}
    (all : (start.1.handed start.2).map Handed.item = earlier ++ items)
    {s t : EQPacketStream} {before w : List StreamEvent}
    (reached
      : Traced.forEach (perform fun packet => processPacket context fuel packet none) earlier
          (start.1.entered start.2) = .ok ((), s, before))
    (run
      : Traced.forEach (perform fun packet => processPacket context fuel packet none) items s
          = .ok ((), t, w))
    : ∀ e ∈ w, CameFrom context start e := by
  induction items generalizing earlier s before w with
  | nil =>
      cases run
      simp
  | cons item rest ih =>
      obtain ⟨_, m, first, later, one, more, rfl⟩ := Traced.bind_eq_ok.mp run
      have next : Traced.forEach (perform fun packet => processPacket context fuel packet none)
          (earlier ++ [item]) (start.1.entered start.2) = .ok ((), m, before ++ first) := by
        have single : Traced.forEach
            (perform fun packet => processPacket context fuel packet none) [item] s
            = .ok ((), m, first) :=
          Traced.bind_eq_ok.mpr ⟨_, m, first, [], one, rfl, by simp⟩
        exact forEach_append reached single
      have behind := ih (by rw [all, List.append_assoc]; rfl) next more
      intro e member
      rcases List.mem_append.mp member with early | late
      · cases item with
        | message call =>
            cases one
            rw [List.mem_singleton.mp early]
            refine ⟨start.1, start.2, .refl, Or.inl ?_⟩
            rw [all]
            simp
        | subpacket packet =>
            have unwraps : Unwraps context start (s, packet) :=
              ⟨earlier, rest, fuel, before, all, reached⟩
            exact (inner one e early).outer unwraps
      · exact behind e late

/-- The items a packet hands on are those its branch performs. -/
theorem handed_combined {s : EQPacketStream} {packet : EQProtocolPacket}
    (kind : packet.netOp = OP_Combined)
    : (s.handed packet).map Handed.item = unrollCombined packet := by
  rw [handed, if_pos kind]
  exact handRecords_items (fun _ _ => rfl) _ _ _ _

theorem handed_appCombined {s : EQPacketStream} {packet : EQProtocolPacket}
    (kind : packet.netOp = OP_AppCombined)
    : (s.handed packet).map Handed.item = unrollAppCombined packet := by
  have other : OP_AppCombined ≠ OP_Combined := by decide
  rw [handed, kind, if_neg other, if_pos rfl]
  refine handRecords_items (fun cursor data => ?_) _ _ _ _
  unfold appCombinedHanded
  split <;> rfl

theorem handed_packet {s : EQPacketStream} {packet : EQProtocolPacket}
    (kind : packet.netOp = OP_Packet) (next : packet.arqSeq = s.arqSeqExp)
    : (s.handed packet).map Handed.item = [unwrapPacket packet] := by
  have others : OP_Packet ≠ OP_Combined ∧ OP_Packet ≠ OP_AppCombined := by decide
  rw [handed, kind, if_neg others.1, if_neg others.2, if_pos rfl, if_pos next]
  rfl

theorem handed_oversized {s : EQPacketStream} {packet : EQProtocolPacket}
    (kind : packet.netOp = OP_Oversized) (next : packet.arqSeq = s.arqSeqExp)
    (complete : (s.fragment.addFragment packet).1.isComplete = true)
    : (s.handed packet).map Handed.item
      = [unwrapFragment (s.fragment.addFragment packet).1.data
          (s.fragment.addFragment packet).1.dataSize] := by
  have others : OP_Oversized ≠ OP_Combined ∧ OP_Oversized ≠ OP_AppCombined
      ∧ OP_Oversized ≠ OP_Packet := by decide
  rw [handed, kind, if_neg others.1, if_neg others.2.1, if_neg others.2.2, if_pos rfl]
  simp only [next, complete, and_self, if_true, List.map_cons, List.map_nil]
  rfl

theorem cameFrom_of_silent {α : Type} {m : StreamM α} (silent : IsSilent m)
    {start : EQPacketStream × EQProtocolPacket} {s t : EQPacketStream} {a : α}
    {w : List StreamEvent} (run : m s = .ok (a, t, w))
    : ∀ e ∈ w, CameFrom context start e :=
  fun e member => .of_silent (records_of_chain (silent _ _ _ _ run) e member)

/-- The check of the buffer behind a completed message. -/
theorem silent_checked (message : EQPacketFragmentSequence) (seen : List StreamEvent)
    : IsSilent
        (do
          let after ← Traced.get
          if seen.all (leavesMessage message after) then pure ()
          else Traced.fault .overwrittenMessage
          : StreamM Unit) := by
  refine Traced.stepwise_get.bind fun after => ?_
  split
  · exact Traced.stepwise_pure ()
  · exact Traced.stepwise_fault _

/-- One item performed behind nothing else. -/
theorem perform_cameFrom {fuel : Nat} (start : EQPacketStream × EQProtocolPacket)
    (inner
      : ∀ {packet s t w}, processPacket context fuel packet none s = .ok ((), t, w) →
          ∀ e ∈ w, CameFrom context (s, packet) e)
    {item : Item} (all : (start.1.handed start.2).map Handed.item = [item])
    {t : EQPacketStream} {w : List StreamEvent}
    (run
      : perform (fun packet => processPacket context fuel packet none) item
          (start.1.entered start.2) = .ok ((), t, w))
    : ∀ e ∈ w, CameFrom context start e := by
  have single : Traced.forEach (perform fun packet => processPacket context fuel packet none)
      [item] (start.1.entered start.2) = .ok ((), t, w) :=
    Traced.bind_eq_ok.mpr ⟨_, t, w, [], run, rfl, by simp⟩
  exact forEach_cameFrom start inner (show _ = [] ++ [item] from all) rfl single

/-- What the processing of a completed message records comes from its fragment. -/
theorem oversized_cameFrom {fuel : Nat}
    (inner
      : ∀ {packet s t w}, processPacket context fuel packet none s = .ok ((), t, w) →
          ∀ e ∈ w, CameFrom context (s, packet) e)
    {packet : EQProtocolPacket} (kind : packet.netOp = OP_Oversized) {s t : EQPacketStream}
    {w : List StreamEvent}
    (run
      : processOversized (fun packet => processPacket context fuel packet none) packet s
          = .ok ((), t, w))
    : ∀ e ∈ w, CameFrom context (s, packet) e := by
  by_cases next : packet.arqSeq = s.arqSeqExp
  · rw [processOversized_expected next] at run
    obtain ⟨_, u, copies, later, copied, rest, rfl⟩ := Traced.bind_eq_ok.mp run
    rw [forEach_fragmentCopy] at copied
    cases copied
    have quiet : ∀ e ∈ (s.fragment.addFragment packet).2.toList.map StreamEvent.fragmentCopy,
        CameFrom context (s, packet) e := by
      intro e member
      obtain ⟨write, _, rfl⟩ := List.mem_map.mp member
      trivial
    rw [List.forall_mem_append]
    refine ⟨quiet, ?_⟩
    by_cases complete : (s.fragment.addFragment packet).1.isComplete = true
    · rw [Traced.when_pos complete] at rest
      obtain ⟨_, _, _, content, mark, inside, rfl⟩ := Traced.bind_eq_ok.mp rest
      cases mark
      obtain ⟨_, v, performed, _, processed, release, joined⟩ := Traced.bind_eq_ok.mp inside
      cases release
      obtain ⟨_, _, _, _, listened, rest', joined'⟩ := Traced.bind_eq_ok.mp processed
      obtain ⟨run', _⟩ := Traced.listen_eq_ok.mp listened
      have quiet' : ∀ e ∈ _, CameFrom context (s, packet) e :=
        cameFrom_of_silent (silent_checked _ _) rest'
      have state : s.entered packet = s.fragmented packet := by
        have other : OP_Oversized ≠ OP_Packet := by decide
        rw [entered, kind, if_neg other, if_pos rfl]
      rw [← state] at run'
      have content' :=
        perform_cameFrom (s, packet) inner (handed_oversized kind next complete) run'
      rw [joined, joined', List.append_nil, List.forall_mem_append, List.forall_mem_append]
      refine ⟨?_, content', quiet'⟩
      rw [List.forall_mem_singleton]
      trivial
    · rw [Traced.when_neg complete] at rest
      cases rest
      simp
  · simp only [processOversized, Traced.get_bind_run, next, if_false] at run
    exact cameFrom_of_silent (Traced.Stepwise.when (silent_setCache _ _)) run

/-- Everything a completed run of `processPacket` visits and dispatches comes from its packet,
by induction on the recursion bound.
-/
theorem processPacket_cameFrom {fuel : Nat} {packet : EQProtocolPacket}
    {header : Option IPHeader} {s t : EQPacketStream} {w : List StreamEvent}
    (run : processPacket context fuel packet header s = .ok ((), t, w))
    : ∀ e ∈ w, CameFrom context (s, packet) e := by
  induction fuel generalizing packet header s t w with
  | zero => cases run
  | succ fuel ih =>
      simp only [processPacket, Traced.get_bind_run] at run
      obtain ⟨_, _, visit, rest, visited, branch, rfl⟩ := Traced.bind_eq_ok.mp run
      cases visited
      rw [List.forall_mem_append, List.forall_mem_singleton]
      refine ⟨Relation.ReflTransGen.refl, ?_⟩
      have unmoved (net : packet.netOp ≠ OP_Packet ∧ packet.netOp ≠ OP_Oversized)
          : s.entered packet = s := by
        rw [entered, if_neg net.1, if_neg net.2]
      unfold processNetOpCode at branch
      split_ifs at branch with app combined appCombined sequenced oversized request response disconnect
      · cases branch
        rw [List.forall_mem_singleton]
        exact ⟨s, packet, .refl, Or.inr ⟨app, rfl⟩⟩
      · have start := unmoved (by rw [combined]; decide)
        exact forEach_cameFrom (s, packet) ih (show _ = [] ++ _ from handed_combined combined)
          (show Traced.forEach _ [] _ = _ by rw [start]; rfl) branch
      · have start := unmoved (by rw [appCombined]; decide)
        exact forEach_cameFrom (s, packet) ih (show _ = [] ++ _ from handed_appCombined appCombined)
          (show Traced.forEach _ [] _ = _ by rw [start]; rfl) branch
      · by_cases next : packet.arqSeq = s.arqSeqExp
        · rw [processSequenced_expected next] at branch
          have state : s.entered packet = s.advanced := by rw [entered, if_pos sequenced]
          rw [← state] at branch
          exact perform_cameFrom (s, packet) ih (handed_packet sequenced next) branch
        · simp only [processSequenced, Traced.get_bind_run, next, if_false] at branch
          exact cameFrom_of_silent (Traced.Stepwise.when (silent_setCache _ _)) branch
      · exact oversized_cameFrom ih oversized branch
      · exact cameFrom_of_silent (silent_sessionRequest packet header) branch
      · exact cameFrom_of_silent (silent_sessionResponse packet header) branch
      · exact cameFrom_of_silent (silent_sessionDisconnect packet) branch
      · cases branch
        simp

/-- Every range that unwrapping an accepted packet passes on, at any depth, lies in what it is
cut from, exactly when every packet that is unwrapped holds whole records.
-/
theorem unwrapping_inside_iff (context : StreamContext) (s : EQPacketStream)
    (packet : EQProtocolPacket)
    : (∀ inner, Unwrapped context (s, packet) inner → inner.1.HandsInside inner.2)
      ↔ ∀ inner, Unwrapped context (s, packet) inner → inner.1.HoldsRecords inner.2 :=
  forall₂_congr fun inner _ => handsInside_iff inner.1 inner.2

/-- An `OP_Combined` with one record, an escaped opcode and nothing behind it. -/
def escapedDatagram : Bytes :=
  [0x00, 0x03, 0x00, 0x03, 0x00, 0x00, 0x06]
    ++ trailer [0x00, 0x03, 0x00, 0x03, 0x00, 0x00, 0x06] 7

/-- The stream takes the datagram, whose record is dispatched with a byte of the checksum. -/
theorem unwrapping_outside_escaped
    : accept alone keyedStream serverHeader (.ofDatagram escapedDatagram)
        = some (.ofDatagram escapedDatagram)
      ∧ ¬ ∀ inner, Unwrapped alone (keyedStream, .ofDatagram escapedDatagram) inner →
          inner.1.HandsInside inner.2 := by
  refine ⟨by decide, fun inside => ?_⟩
  have handed : combinedHanded 0 (EQProtocolPacket.ofDatagram escapedDatagram).payload
      ∈ keyedStream.handed (.ofDatagram escapedDatagram) := by decide
  have range := (inside _ .refl _ handed).range
  exact absurd range (by decide)

end EQPacketStream
end Scry
