import Scry.PacketStream.RoundTrips
import Scry.PacketStream.Steps

/-! What the branch of an expected packet does with plain content: the stream moves on by one
number and changes nothing else but the fragment buffer.
-/

namespace Scry

/-- The item is a message, or a packet that leaves the stream alone: neither sequenced nor of a
session, and if it is a group, a group of such items. `depth` bounds how deep groups are nested.
-/
def Item.isPlain : Nat → Item → Bool
  | _, .message _ => true
  | 0, .subpacket _ => false
  | depth + 1, .subpacket packet =>
      !packet.hasArqSeq && packet.netOp != OP_SessionRequest
        && packet.netOp != OP_SessionResponse && packet.netOp != OP_SessionDisconnect
        && (packet.netOp != OP_Combined
          || (unrollCombined packet).all (Item.isPlain depth))

namespace EQPacketFragmentSequence

/-- The buffer behind an expected packet. A fragment is added, and a message it completed is
released.
-/
def taken (f : EQPacketFragmentSequence) (packet : EQProtocolPacket) : EQPacketFragmentSequence :=
  if packet.netOp = OP_Oversized then
    let fragment := (f.addFragment packet).1
    if fragment.isComplete then fragment.reset else fragment
  else f

/-- What an expected packet is unwrapped to: its own content, or that of the message it completes.
-/
def contentOf (f : EQPacketFragmentSequence) (packet : EQProtocolPacket) : Option Item :=
  if packet.netOp = OP_Oversized then
    let fragment := (f.addFragment packet).1
    if fragment.isComplete then some (unwrapFragment fragment.data fragment.dataSize) else none
  else some (unwrapPacket packet)

/-- Packets that are expected one after another carry plain content only. -/
def takesPlain (depth : Nat) : EQPacketFragmentSequence → List EQProtocolPacket → Bool
  | _, [] => true
  | f, packet :: rest =>
      (f.contentOf packet).all (Item.isPlain depth) && takesPlain depth (f.taken packet) rest

theorem takesPlain_cons {depth : Nat} {f : EQPacketFragmentSequence} {packet : EQProtocolPacket}
    {rest : List EQProtocolPacket}
    : f.takesPlain depth (packet :: rest) = true
      ↔ (∀ item ∈ f.contentOf packet, item.isPlain depth = true)
        ∧ (f.taken packet).takesPlain depth rest = true := by
  rw [takesPlain, Bool.and_eq_true, Option.all_eq_true]
  rfl

end EQPacketFragmentSequence

namespace EQPacketStream

variable {context : StreamContext} {s : EQPacketStream}

-----------------------------------------------------------------------------------------
-- What a trace shows
-----------------------------------------------------------------------------------------

/-- A packet that the branch of an expected packet is handed. -/
def expectedPacket : StreamEvent → Option EQProtocolPacket
  | .processing before packet => if before.Expects packet then some packet else none
  | _ => none

/-- A number that the stream gives up on. -/
def skippedNumber : StreamEvent → Option UInt16
  | .skipping before => some before.arqSeqExp
  | _ => none

/-- The number of an entry of the cache that is freed. -/
def freedNumber : StreamEvent → Option UInt16
  | .deletePacket seq => some seq
  | _ => none

/-- The packets that the branch of an expected packet is handed, one after the other. -/
def expectedPackets (w : List StreamEvent) : List EQProtocolPacket := w.filterMap expectedPacket

def skippedNumbers (w : List StreamEvent) : List UInt16 := w.filterMap skippedNumber

def freedNumbers (w : List StreamEvent) : List UInt16 := w.filterMap freedNumber

/-- Nothing is handed to the branch, no number is given up and no entry freed. -/
structure HandsNothing (w : List StreamEvent) : Prop where
  expected : expectedPackets w = []
  skipped : skippedNumbers w = []
  freed : freedNumbers w = []

theorem expectedPackets_append (w v : List StreamEvent)
    : expectedPackets (w ++ v) = expectedPackets w ++ expectedPackets v :=
  List.filterMap_append

theorem skippedNumbers_append (w v : List StreamEvent)
    : skippedNumbers (w ++ v) = skippedNumbers w ++ skippedNumbers v :=
  List.filterMap_append

theorem freedNumbers_append (w v : List StreamEvent)
    : freedNumbers (w ++ v) = freedNumbers w ++ freedNumbers v :=
  List.filterMap_append

theorem HandsNothing.append {w v : List StreamEvent} (first : HandsNothing w)
    (second : HandsNothing v)
    : HandsNothing (w ++ v) where
  expected := by rw [expectedPackets_append, first.expected, second.expected, List.append_nil]
  skipped := by rw [skippedNumbers_append, first.skipped, second.skipped, List.append_nil]
  freed := by rw [freedNumbers_append, first.freed, second.freed, List.append_nil]

theorem deletePacket_notMem {w : List StreamEvent} (freed : freedNumbers w = []) (seq : UInt16)
    : .deletePacket seq ∉ w := by
  intro member
  have listed : seq ∈ freedNumbers w := List.mem_filterMap.mpr ⟨_, member, rfl⟩
  rw [freed] at listed
  exact absurd listed List.not_mem_nil

-----------------------------------------------------------------------------------------
-- Plain content
-----------------------------------------------------------------------------------------

/-- The visit of a packet that has no number, or a message on its way. -/
def Aside : StreamEvent → Prop
  | .processing _ packet => packet.hasArqSeq = false
  | .dispatchPacket _ => True
  | _ => False

/-- The computation ends, leaves the stream as it found it, and records asides only. -/
def LeavesStream (m : StreamM Unit) : Prop :=
  ∀ s, ∃ w, m s = .ok ((), s, w) ∧ ∀ e ∈ w, Aside e

theorem leavesStream_pure : LeavesStream (pure ()) := fun _ => ⟨[], rfl, by simp⟩

theorem leavesStream_dispatch (call : DispatchCall)
    : LeavesStream (Traced.emit (.dispatchPacket call)) :=
  fun _ => ⟨[.dispatchPacket call], rfl, by simp [Aside]⟩

/-- A loop leaves the stream when its body does, by induction on the items. -/
theorem LeavesStream.forEach {f : Item → StreamM Unit} {items : List Item}
    (body : ∀ item ∈ items, LeavesStream (f item))
    : LeavesStream (Traced.forEach f items) := by
  induction items with
  | nil => exact leavesStream_pure
  | cons item rest ih =>
      intro s
      obtain ⟨early, first, asides⟩ := body item List.mem_cons_self s
      obtain ⟨late, second, asides'⟩ := ih (fun other member => body other (by simp [member])) s
      refine ⟨early ++ late, Traced.bind_eq_ok.mpr ⟨_, s, _, _, first, second, rfl⟩, ?_⟩
      exact List.forall_mem_append.mpr ⟨asides, asides'⟩

/-- Plain items leave the stream alone, by induction on their depth. -/
theorem perform_plain (context : StreamContext) {depth fuel : Nat} {item : Item}
    (plain : item.isPlain depth = true)
    (enough : depth ≤ fuel)
    : LeavesStream (perform (fun packet => processPacket context fuel packet none) item) := by
  induction depth generalizing fuel item with
  | zero =>
      cases item with
      | message call => exact leavesStream_dispatch call
      | subpacket packet => exact absurd plain Bool.false_ne_true
  | succ depth ih =>
      cases item with
      | message call => exact leavesStream_dispatch call
      | subpacket packet =>
          obtain ⟨fuel, rfl⟩ : ∃ n, fuel = n + 1 := ⟨fuel - 1, by omega⟩
          simp only [Item.isPlain, Bool.and_eq_true, Bool.not_eq_true', bne_iff_ne, Bool.or_eq_true,
            List.all_eq_true] at plain
          obtain ⟨⟨⟨⟨unsequenced, request⟩, response⟩, disconnect⟩, items⟩ := plain
          have kinds := unsequenced
          simp only [EQProtocolPacket.hasArqSeq, Bool.or_eq_false_iff, beq_eq_false_iff_ne]
            at kinds
          have branch
              : LeavesStream (processNetOpCode context
                  (fun inner => processPacket context fuel inner none) packet none) := by
            unfold processNetOpCode
            rw [if_neg kinds.1, if_neg kinds.2, if_neg request, if_neg response, if_neg disconnect]
            split_ifs with app combined appCombined
            · exact leavesStream_dispatch _
            · have inside := items.resolve_left (fun other => other combined)
              exact .forEach fun inner member => ih (inside inner member) (by omega)
            · obtain ⟨calls, items⟩ := unrollRecords_calls packet.payloadLength.toNat
                packet.payloadLength.toNat packet.payload
              rw [unrollAppCombined, items]
              refine .forEach fun inner member => ?_
              obtain ⟨call, _, rfl⟩ := List.mem_map.mp member
              exact leavesStream_dispatch call
            · exact leavesStream_pure
          intro s
          obtain ⟨w, run, asides⟩ := branch s
          refine ⟨.processing s packet :: w, ?_, ?_⟩
          · simp only [perform, processPacket, Traced.get_bind_run, Traced.emit_bind_run, run]
          · exact List.forall_mem_cons.mpr ⟨unsequenced, asides⟩

-----------------------------------------------------------------------------------------
-- The expected packet
-----------------------------------------------------------------------------------------

/-- The stream behind an expected packet with plain content. -/
def took (s : EQPacketStream) (packet : EQProtocolPacket) : EQPacketStream :=
  { s with arqSeqExp := s.arqSeqExp + 1, fragment := s.fragment.taken packet }

/-- Asides hand nothing to the branch: their packets have no number. -/
theorem handsNothing_of_aside {w : List StreamEvent} (asides : ∀ e ∈ w, Aside e)
    : HandsNothing w := by
  have each : ∀ e ∈ w, expectedPacket e = none ∧ skippedNumber e = none ∧ freedNumber e = none := by
    intro e member
    have aside := asides e member
    cases e with
    | processing before packet =>
        refine ⟨if_neg fun expects => ?_, rfl, rfl⟩
        exact absurd expects.1 (by simpa [Aside] using aside)
    | dispatchPacket => exact ⟨rfl, rfl, rfl⟩
    | skipping | advancing | fragmentCopy | completedOversized | sessionKey | closing
    | deletePacket => exact aside.elim
  exact ⟨List.filterMap_eq_nil_iff.mpr fun e member => (each e member).1,
    List.filterMap_eq_nil_iff.mpr fun e member => (each e member).2.1,
    List.filterMap_eq_nil_iff.mpr fun e member => (each e member).2.2⟩

/-- A completed message with plain content is processed without touching the buffer. -/
theorem processFragment_plain (context : StreamContext) {depth fuel : Nat}
    {message : EQPacketFragmentSequence}
    (plain : (unwrapFragment message.data message.dataSize).isPlain depth = true)
    (enough : depth ≤ fuel) (s : EQPacketStream)
    : ∃ w,
        processFragment (fun packet => processPacket context fuel packet none) message s
            = .ok ((), s, w)
          ∧ HandsNothing w := by
  obtain ⟨w, run, asides⟩ := perform_plain context plain enough s
  have kept : w.all (leavesMessage message s) = true := by
    rw [List.all_eq_true]
    intro e member
    have aside := asides e member
    cases e with
    | fragmentCopy => exact aside.elim
    | _ => rfl
  refine ⟨w, ?_, handsNothing_of_aside asides⟩
  rw [processFragment, Traced.bind_run_ok (Traced.listen_eq_ok.mpr ⟨run, rfl⟩)]
  simp only [Traced.get_bind_run, kept, if_true, Traced.pure_run, List.append_nil]

/-- The branch of an expected packet with plain content. -/
theorem processNetOpCode_expected {depth fuel : Nat} {packet : EQProtocolPacket}
    {header : Option IPHeader} (expects : s.Expects packet)
    (plain : ∀ item ∈ s.fragment.contentOf packet, item.isPlain depth = true)
    (enough : depth ≤ fuel)
    : ∃ w,
        processNetOpCode context (fun inner => processPacket context fuel inner none) packet
            header s
            = .ok ((), s.took packet, w)
          ∧ HandsNothing w := by
  obtain ⟨sequenced, next⟩ := expects
  simp only [EQProtocolPacket.hasArqSeq, Bool.or_eq_true, beq_iff_eq] at sequenced
  rcases sequenced with kind | kind
  · have other : ¬ OP_Packet = OP_Oversized := by decide
    have content := plain (unwrapPacket packet)
      (by simp [EQPacketFragmentSequence.contentOf, kind, other])
    obtain ⟨w, run, asides⟩ := perform_plain context content enough s.advanced
    refine ⟨w, ?_, handsNothing_of_aside asides⟩
    rw [processNetOpCode_packet kind, processSequenced_expected next, run]
    simp [took, EQPacketFragmentSequence.taken, kind, other, advanced]
  · rw [processNetOpCode_oversized kind, processOversized_expected next,
      Traced.bind_run_ok (forEach_fragmentCopy _ _)]
    have copies (writes : Option BufferWrite)
        : HandsNothing (writes.toList.map StreamEvent.fragmentCopy) := by
      cases writes <;> exact ⟨rfl, rfl, rfl⟩
    by_cases complete : (s.fragment.addFragment packet).1.isComplete = true
    · have content := plain _ (by
        rw [EQPacketFragmentSequence.contentOf, if_pos kind]
        exact if_pos complete)
      obtain ⟨w, run, nothing⟩ :=
        processFragment_plain context content enough (s.fragmented packet)
      have marked (message : Bytes) : HandsNothing (.completedOversized message :: w) :=
        HandsNothing.append (w := [.completedOversized message]) ⟨rfl, rfl, rfl⟩ nothing
      refine ⟨_, ?_, (copies (s.fragment.addFragment packet).2).append
        (marked (readBytes (s.fragment.addFragment packet).1.data
          (s.fragment.addFragment packet).1.dataSize))⟩
      rw [Traced.when_pos complete, Traced.emit_bind_run, Traced.bind_run_ok run]
      simp [took, EQPacketFragmentSequence.taken, kind, complete, fragmented]
    · refine ⟨_, ?_, copies (s.fragment.addFragment packet).2⟩
      rw [Traced.when_neg complete]
      simp [took, EQPacketFragmentSequence.taken, kind, complete, fragmented]

/-- An expected packet with plain content is handed to its branch, and nothing else happens. -/
theorem processPacket_expected (context : StreamContext) {depth fuel : Nat}
    {packet : EQProtocolPacket} (header : Option IPHeader) (expects : s.Expects packet)
    (plain : ∀ item ∈ s.fragment.contentOf packet, item.isPlain depth = true)
    (deep : depth < fuel)
    : ∃ w,
        processPacket context fuel packet header s = .ok ((), s.took packet, w)
          ∧ expectedPackets w = [packet]
          ∧ skippedNumbers w = []
          ∧ freedNumbers w = [] := by
  obtain ⟨fuel, rfl⟩ : ∃ n, fuel = n + 1 := ⟨fuel - 1, by omega⟩
  obtain ⟨w, run, nothing⟩ :=
    @processNetOpCode_expected context s depth fuel packet header expects plain
      (Nat.le_of_lt_succ deep)
  have handed : expectedPacket (.processing s packet) = some packet := if_pos expects
  refine ⟨.processing s packet :: w, ?_, ?_, nothing.skipped, nothing.freed⟩
  · simp only [processPacket, Traced.get_bind_run, Traced.emit_bind_run, run]
  · rw [expectedPackets, List.filterMap_cons_some handed]
    exact congrArg (packet :: ·) nothing.expected

end EQPacketStream
end Scry
