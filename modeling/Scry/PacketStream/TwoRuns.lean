import Scry.Library.Following
import Scry.PacketStream.Likeness

/-! Two runs of a stream on the same calls.
Streams that are the same but for the storage behind their fragments dispatch the same messages,
as long as no fragment outgrows its message and no carrier is read past its end.
-/

namespace Scry
namespace EQPacketStream

open EQPacketFragmentSequence (Opens declaredTotal)
open Traced (Follows)

variable {context : StreamContext}

-----------------------------------------------------------------------------------------
-- What is compared
-----------------------------------------------------------------------------------------

/-- The streams are the same, down to the part of a message they have put together. -/
def Alike (s t : EQPacketStream) : Prop :=
  ∃ fragment, t = { s with fragment } ∧ s.fragment.Alike fragment

/-- An expected fragment keeps to its message. -/
def FragmentFits : StreamEvent → Prop
  | .processing s packet =>
      packet.netOp = OP_Oversized → packet.arqSeq = s.arqSeqExp → s.fragment.Fits packet
  | _ => True

/-- What is read of a packet lies inside it. Packets that come in whole are read from the same
datagram in both runs, so this is asked only of what is read from a fragment buffer.
-/
def KeepsToItself : StreamEvent → Prop
  | .processing s packet =>
      FragmentFits (.processing s packet)
        ∧ (packet.subpacket = true ∨ packet.netOp = OP_Oversized → s.HoldsRecords packet)
        ∧ (packet.subpacket = true → packet.netOp = OP_SessionDisconnect →
            5 ≤ packet.payloadLength.toNat)
  | _ => True

/-- The message an event hands on. -/
def messageOf : StreamEvent → Option Message
  | .dispatchPacket call => some (dispatched call)
  | _ => none

/-- The messages a call dispatched, in order. -/
def messages (w : List StreamEvent) : List Message := w.filterMap messageOf

/-- The events of two runs that go alike. -/
inductive LikeEvent : StreamEvent → StreamEvent → Prop
  | same (e : StreamEvent) : LikeEvent e e
  | processing {s t : EQPacketStream} {p q : EQProtocolPacket}
    (fits : FragmentFits (.processing s p) → FragmentFits (.processing t q))
    : LikeEvent (.processing s p) (.processing t q)
  | skipping (s t : EQPacketStream) : LikeEvent (.skipping s) (.skipping t)
  | advancing (s t : EQPacketStream) : LikeEvent (.advancing s) (.advancing t)
  | dispatchPacket {call call' : DispatchCall} (same : dispatched call' = dispatched call)
    : LikeEvent (.dispatchPacket call) (.dispatchPacket call')

/-- Two runs of a stream compared. -/
def sideBySide : Traced.Comparison EQPacketStream StreamEvent where
  states := Alike
  events := LikeEvent
  permits := KeepsToItself

abbrev Tracks : StreamM Unit → EQPacketStream → StreamM Unit → EQPacketStream → Prop :=
  Traced.Tracks sideBySide

variable {s t : EQPacketStream} {p q : EQProtocolPacket}

theorem LikeEvent.messageOf {e e' : StreamEvent} (like : LikeEvent e e')
    : EQPacketStream.messageOf e' = EQPacketStream.messageOf e := by
  cases like with
  | dispatchPacket same => exact congrArg some same
  | _ => rfl

/-- Runs that go alike dispatch the same messages, by induction on their events. -/
theorem messages_eq {w v : List StreamEvent} (events : List.Forall₂ LikeEvent w v)
    : messages v = messages w := by
  induction events with
  | nil => rfl
  | cons like _ ih =>
      simp only [messages, List.filterMap_cons, like.messageOf] at ih ⊢
      rw [ih]

theorem LikeEvent.fragmentFits {e e' : StreamEvent} (like : LikeEvent e e')
    (fits : FragmentFits e)
    : FragmentFits e' := by
  cases like with
  | same => exact fits
  | processing carries => exact carries fits
  | _ => trivial

theorem KeepsToItself.fragmentFits {e : StreamEvent} (keeps : KeepsToItself e)
    : FragmentFits e := by
  cases e with
  | processing s packet => exact keeps.1
  | _ => trivial

/-- An event that is no packet, no message and no place is itself in the other run. -/
theorem LikeEvent.fragmentCopy {e : StreamEvent} {write : BufferWrite}
    (like : LikeEvent e (.fragmentCopy write))
    : e = .fragmentCopy write := by
  cases like
  rfl

theorem LikeEvent.deletePacket_iff {e e' : StreamEvent} (like : LikeEvent e e') (seq : UInt16)
    : e' = .deletePacket seq ↔ e = .deletePacket seq := by
  cases like <;> simp

-----------------------------------------------------------------------------------------
-- Processing one packet
-----------------------------------------------------------------------------------------

variable {processInner : EQProtocolPacket → StreamM Unit}

/-- Processing goes alike for alike packets in alike streams. -/
def InnerTracks (processInner : EQProtocolPacket → StreamM Unit) : Prop :=
  ∀ p q s t, p.Alike q → s.Alike t → Tracks (processInner p) s (processInner q) t

theorem perform_tracks (inner : InnerTracks processInner) {item other : Item}
    (items : item.Alike other) (like : s.Alike t)
    : Tracks (perform processInner item) s (perform processInner other) t := by
  cases items with
  | message same => exact Traced.tracks_emit (fun _ => .dispatchPacket same) like
  | subpacket packets => exact inner _ _ s t packets like

theorem setCache_tracks (packets : p.Alike q) (like : s.Alike t) (seq : UInt16)
    : Tracks (setCache seq p) s (setCache seq q) t := by
  obtain ⟨g, rfl, fragments⟩ := like
  have like : (s.stored seq p).Alike ({ s with fragment := g }.stored seq q) :=
    ⟨g, by simp only [stored, packets.copied], fragments⟩
  refine Traced.follows_get_bind ?_
  simp only
  cases s.cache.find? seq with
  | none => exact Traced.tracks_modify like
  | some old =>
      refine Follows.when (by rw [packets.passesCRC]) ⟨g, rfl, fragments⟩ fun _ => ?_
      exact Traced.follows_emit_bind (.same _) fun _ => Traced.tracks_modify like

theorem processSequenced_tracks (inner : InnerTracks processInner) (packets : p.Alike q)
    (like : s.Alike t)
    (enough
      : p.arqSeq = s.arqSeqExp → p.subpacket = true →
          minLength p.payload ≤ p.payloadLength.toNat)
    : Tracks (processSequenced processInner p) s (processSequenced processInner q) t := by
  obtain ⟨g, rfl, fragments⟩ := like
  refine Traced.follows_get_bind (Follows.ite (by rw [packets.arqSeq]) (fun next => ?_) fun _ => ?_)
  · refine Traced.follows_modify_bind ?_
    exact perform_tracks inner (packets.unwrapPacket (enough next)) ⟨g, rfl, fragments⟩
  · refine Follows.when (by rw [packets.arqSeq]) ⟨g, rfl, fragments⟩ fun _ => ?_
    rw [packets.arqSeq]
    exact setCache_tracks packets ⟨g, rfl, fragments⟩ _

/-- A buffer is replaced by a larger one only for a first fragment, which is copied to its
start.
-/
theorem PacketStep.dataAllocSize_eq {w : List StreamEvent} (step : PacketStep context s w t)
    (fits : ∀ e ∈ w, FragmentFits e)
    (behind : ∀ write, .fragmentCopy write ∈ w → 0 < write.offset ∨ write.length = 0)
    : t.fragment.dataAllocSize = s.fragment.dataAllocSize := by
  cases step with
  | fragment kind next =>
      rename_i packet
      have fit := fits _ List.mem_cons_self kind next
      unfold fragmentEvents at behind
      change (s.fragment.addFragment packet).1.dataAllocSize = _
      rcases s.fragment.addFragment_cases packet with
        ⟨_, _, result⟩ | ⟨empty, _, result⟩ | ⟨_, _, result⟩ | ⟨_, _, result⟩
      · rw [result]
        rfl
      · have long := (fit.1 empty).1
        have copied := behind ⟨0, (packet.payloadLength - 4).toNat⟩ (by simp [result])
        simp only [Nat.lt_irrefl, false_or,
          EQPacketFragmentSequence.firstLength (show 4 ≤ packet.payloadLength.toNat by omega)]
          at copied
        omega
      · rw [result]
        rfl
      · rw [result]
  | _ => rfl

theorem PacketSteps.dataAllocSize_eq {w : List StreamEvent} (steps : PacketSteps context s w t)
    (fits : ∀ e ∈ w, FragmentFits e)
    (behind : ∀ write, .fragmentCopy write ∈ w → 0 < write.offset ∨ write.length = 0)
    : t.fragment.dataAllocSize = s.fragment.dataAllocSize := by
  induction steps with
  | refl => rfl
  | tail _ last ih =>
      have early := ih (fun e member => fits e (List.mem_append_left _ member))
        fun write member => behind write (List.mem_append_left _ member)
      refine (last.dataAllocSize_eq ?_ ?_).trans early
      · exact fun e member => fits e (List.mem_append_right _ member)
      · exact fun write member => behind write (List.mem_append_right _ member)

/-- The content of a message leaves the one buffer alone when it leaves the other. -/
theorem leavesMessage_alike (stepwise : ∀ p, Traced.Stepwise (PacketStep context) (processInner p))
    {item : Item} {u : EQPacketStream} {w v : List StreamEvent}
    (run : perform processInner item t = .ok ((), u, v)) (events : List.Forall₂ LikeEvent w v)
    (keeps : ∀ e ∈ w, KeepsToItself e) {f : EQPacketFragmentSequence} {after : EQPacketStream}
    (like : f.Alike t.fragment) (started : f.dataSize ≠ 0)
    (left : w.all (leavesMessage f after) = true)
    : v.all (leavesMessage t.fragment u) = true := by
  have fits : ∀ e ∈ v, FragmentFits e := by
    intro e member
    obtain ⟨e', found, alike⟩ := Traced.exists_like events member
    exact alike.fragmentFits (keeps e' found).fragmentFits
  have copies : ∀ write, .fragmentCopy write ∈ v → f.dataSize ≤ write.offset ∨ write.length = 0 := by
    intro write member
    obtain ⟨e', found, alike⟩ := Traced.exists_like events member
    obtain rfl := alike.fragmentCopy
    have spared := List.all_eq_true.mp left _ found
    simp only [leavesMessage, Bool.and_eq_true, decide_eq_true_eq] at spared
    exact spared.1
  have same : u.fragment.dataAllocSize = t.fragment.dataAllocSize := by
    refine PacketSteps.dataAllocSize_eq (perform_stepwise stepwise item _ _ _ _ run) fits ?_
    intro write member
    have := copies write member
    omega
  rw [List.all_eq_true]
  intro e member
  cases e with
  | fragmentCopy write =>
      simp only [leavesMessage, like.dataSize, same, beq_self_eq_true, Bool.and_true,
        decide_eq_true_eq]
      exact copies write member
  | _ => rfl

theorem processFragment_tracks (inner : InnerTracks processInner)
    (stepwise : ∀ p, Traced.Stepwise (PacketStep context) (processInner p)) (like : s.Alike t)
    (complete : s.fragment.isComplete = true)
    (enough : minLength s.fragment.data ≤ s.fragment.dataSize)
    : Tracks (processFragment processInner s.fragment) s (processFragment processInner t.fragment)
        t := by
  have ⟨g, same, fragments⟩ := like
  have fragments : s.fragment.Alike t.fragment := by rwa [same]
  intro a s' w run permitted
  obtain ⟨⟨_, seen⟩, after, early, late, listened, rest, rfl⟩ := Traced.bind_eq_ok.mp run
  obtain ⟨performed, rfl⟩ := Traced.listen_eq_ok.mp listened
  simp only [Traced.get_bind_run] at rest
  split at rest
  · rename_i left
    cases rest
    rw [List.append_nil] at permitted ⊢
    obtain ⟨_, after', v, run', _, alike, events⟩ :=
      perform_tracks inner (fragments.unwrapFragment complete enough) like _ _ _ performed permitted
    have started : s.fragment.dataSize ≠ 0 := by
      intro empty
      simp [EQPacketFragmentSequence.isComplete, empty] at complete
    have left' := leavesMessage_alike stepwise run' events permitted fragments started left
    refine ⟨(), after', v, Traced.bind_eq_ok.mpr ⟨((), v), after', v, [], ?_, ?_, ?_⟩, trivial, alike,
      events⟩
    · exact Traced.listen_eq_ok.mpr ⟨run', rfl⟩
    · simp only [Traced.get_bind_run, left', if_true]
      rfl
    · exact (List.append_nil v).symm
  · cases rest

theorem processOversized_tracks (inner : InnerTracks processInner)
    (stepwise : ∀ p, Traced.Stepwise (PacketStep context) (processInner p)) (packets : p.Alike q)
    (like : s.Alike t) (fits : p.arqSeq = s.arqSeqExp → s.fragment.Fits p)
    (enough
      : p.arqSeq = s.arqSeqExp → (s.fragment.addFragment p).1.isComplete = true →
          minLength (s.fragment.addFragment p).1.data ≤ (s.fragment.addFragment p).1.dataSize)
    : Tracks (processOversized processInner p) s (processOversized processInner q) t := by
  obtain ⟨g, rfl, fragments⟩ := like
  by_cases next : p.arqSeq = s.arqSeqExp
  · obtain ⟨alike, copies⟩ := fragments.addFragment packets (fits next)
    have after : (s.fragmented p).Alike ({ s with fragment := g }.fragmented q) :=
      ⟨_, rfl, alike⟩
    refine Follows.of_runs (processOversized_expected next)
      (processOversized_expected (packets.arqSeq.trans next)) ?_
    refine Traced.follows_bind_ok (forEach_fragmentCopy _ _) (forEach_fragmentCopy _ _) ?_ ?_
    · change List.Forall₂ LikeEvent _ ((g.addFragment q).2.toList.map _)
      rw [copies]
      exact List.forall₂_same.mpr fun e _ => .same e
    · refine Follows.when (by rw [alike.isComplete]) after fun complete => ?_
      rw [alike.readBytes]
      refine Traced.follows_emit_bind (.same _) fun _ => ?_
      refine (processFragment_tracks inner stepwise after complete (enough next complete)).bind ?_
      rintro _ _ u v _ ⟨h, rfl, _⟩
      exact Traced.tracks_modify ⟨h.reset, rfl, EQPacketFragmentSequence.alike_reset _ _⟩
  · refine Traced.follows_get_bind (Follows.ite (by rw [packets.arqSeq])
      (fun now => absurd now next) fun _ => ?_)
    refine Follows.when (by rw [packets.arqSeq]) ⟨g, rfl, fragments⟩ fun _ => ?_
    rw [packets.arqSeq]
    exact setCache_tracks packets ⟨g, rfl, fragments⟩ _

theorem latch_tracks (header : Option IPHeader) (port : IPHeader → UInt16)
    (ip : IPHeader → UInt32) (like : s.Alike t)
    : Tracks (latch header port ip) s (latch header port ip) t := by
  obtain ⟨g, rfl, fragments⟩ := like
  cases header with
  | none => exact Traced.follows_fault
  | some header => exact Traced.tracks_modify ⟨g, rfl, fragments⟩

theorem processSessionRequest_tracks (packets : p.Alike q) (header : Option IPHeader)
    (like : s.Alike t)
    : Tracks (processSessionRequest p header) s (processSessionRequest q header) t := by
  refine Follows.when (by rw [packets.payloadLength]) like fun size => ?_
  obtain ⟨g, rfl, fragments⟩ := like
  have long : p.payloadLength.toNat = 22 := by rw [size]; rfl
  have after : (s.requested p).Alike ({ s with fragment := g }.requested q) :=
    ⟨g, by simp only [requested, packets.eqntohuint32 (show 4 + 4 ≤ _ by omega),
      packets.eqntohuint32 (show 8 + 4 ≤ _ by omega)], fragments⟩
  refine Traced.follows_get_bind (Traced.follows_modify_bind ?_)
  exact Follows.when Iff.rfl after fun _ => latch_tracks header _ _ after

theorem processSessionResponse_tracks (packets : p.Alike q) (header : Option IPHeader)
    (like : s.Alike t)
    : Tracks (processSessionResponse p header) s (processSessionResponse q header) t := by
  refine Follows.when (by rw [packets.payloadLength]) like fun size => ?_
  obtain ⟨g, rfl, fragments⟩ := like
  have long : p.payloadLength.toNat = 19 := by rw [size]; rfl
  have read : { s with fragment := g }.responded q = { s.responded p with fragment := g } := by
    have first := packets.eqntohuint32 (i := 0) (by omega)
    simp only [List.drop_zero] at first
    simp only [responded, first, packets.eqntohuint32 (show 4 + 4 ≤ _ by omega),
      packets.eqntohuint32 (show 11 + 4 ≤ _ by omega)]
  have after : (s.responded p).Alike ({ s with fragment := g }.responded q) :=
    ⟨g, read, fragments⟩
  refine Traced.follows_get_bind (Traced.follows_modify_bind ?_)
  simp only [read] at after ⊢
  refine Traced.follows_emit_bind (.same _) fun _ => ?_
  exact Follows.when Iff.rfl after fun _ => latch_tracks header _ _ after

theorem resetCache_tracks (like : s.Alike t) : Tracks resetCache s resetCache t := by
  obtain ⟨g, rfl, fragments⟩ := like
  refine Traced.follows_get_bind ?_
  refine (Follows.forEach (c := sideBySide) (I := Eq) (List.forall₂_same.mpr fun _ _ => rfl) ?_
    ⟨g, rfl, fragments⟩).bind ?_
  · rintro seq _ _ _ rfl like
    exact Traced.tracks_emit (fun _ => .same _) like
  · rintro _ _ u v _ ⟨g, rfl, fragments⟩
    exact Traced.tracks_modify ⟨g, rfl, fragments⟩

theorem close_tracks (sessionId : UInt32) (like : s.Alike t)
    : Tracks (close context sessionId) s (close context sessionId) t := by
  have ⟨g, same, fragments⟩ := like
  subst same
  refine Traced.follows_get_bind (Follows.when Iff.rfl like fun _ => ?_)
  have reset : Tracks reset s reset { s with fragment := g } := by
    refine (resetCache_tracks like).bind ?_
    rintro _ _ u v _ ⟨g, rfl, fragments⟩
    exact Traced.tracks_modify ⟨g.reset, rfl, EQPacketFragmentSequence.alike_reset _ _⟩
  refine reset.bind ?_
  rintro _ _ u v _ ⟨g, rfl, fragments⟩
  exact Traced.tracks_modify ⟨g, rfl, fragments⟩

theorem ignoresDisconnect_alike (packets : p.Alike q) (like : s.Alike t)
    (long : p.subpacket = true → 5 ≤ p.payloadLength.toNat)
    : t.ignoresDisconnect q = s.ignoresDisconnect p := by
  obtain ⟨g, rfl, _⟩ := like
  rcases packets with rfl | same
  · rfl
  · have read := (EQProtocolPacket.Alike.eqntohuint32 (.inr same) (i := 1) (by
      have := long same.inner
      omega))
    simp only [ignoresDisconnect, read]

theorem processSessionDisconnect_tracks (packets : p.Alike q) (like : s.Alike t)
    (long : p.subpacket = true → 5 ≤ p.payloadLength.toNat)
    : Tracks (processSessionDisconnect context p) s (processSessionDisconnect context q) t := by
  have ignored := ignoresDisconnect_alike packets like long
  have ⟨g, same, fragments⟩ := like
  subst same
  refine Traced.follows_get_bind (Follows.when (by rw [ignored]) like fun _ => ?_)
  refine Traced.follows_modify_bind ?_
  refine Follows.bind (resetCache_tracks ⟨g, rfl, fragments⟩) ?_
  intro _ _ u v _ like
  have latched : Tracks
      (Traced.when s.sessionTracking
        (Traced.modify fun s => { s with sessionClientPort := 0, sessionClientIP := 0 })) u
      (Traced.when s.sessionTracking
        (Traced.modify fun s => { s with sessionClientPort := 0, sessionClientIP := 0 })) v := by
    refine Follows.when Iff.rfl like fun _ => ?_
    obtain ⟨g, rfl, fragments⟩ := like
    exact Traced.tracks_modify ⟨g, rfl, fragments⟩
  refine latched.bind fun _ _ u v _ like => ?_
  refine Traced.follows_emit_bind (.same _) fun _ => ?_
  exact Follows.when Iff.rfl like fun _ => close_tracks s.sessionId like

/-- The switch goes alike for a packet that keeps to itself, case by case. -/
theorem processNetOpCode_tracks (inner : InnerTracks processInner)
    (stepwise : ∀ p, Traced.Stepwise (PacketStep context) (processInner p)) (packets : p.Alike q)
    (header : Option IPHeader) (like : s.Alike t) (keeps : KeepsToItself (.processing s p))
    : Tracks (processNetOpCode context processInner p header) s
        (processNetOpCode context processInner q header) t := by
  obtain ⟨fits, records, long⟩ := keeps
  have netOp := packets.netOp
  unfold processNetOpCode
  refine Follows.ite (by rw [netOp]) (fun _ => ?_) fun _ => ?_
  · refine Traced.tracks_emit (fun _ => .dispatchPacket ?_) like
    have body := packets.payloadBytes
    simp only [EQProtocolPacket.payloadBytes] at body
    simp only [dispatched, DispatchCall.body, netOp, body]
  refine Follows.ite (by rw [netOp]) (fun kind => ?_) fun _ => ?_
  · exact Follows.forEach
      (packets.unrollRecords combinedRecord_moves (fun _ => combinedRecord_takenWhole)
        fun inner => (records (.inl inner)).1 kind)
      (fun _ _ _ _ items like => perform_tracks inner items like) like
  refine Follows.ite (by rw [netOp]) (fun kind => ?_) fun _ => ?_
  · exact Follows.forEach
      (packets.unrollRecords appCombinedRecord_moves (fun _ => appCombinedRecord_takenWhole)
        fun inner => (records (.inl inner)).2.1 kind)
      (fun _ _ _ _ items like => perform_tracks inner items like) like
  refine Follows.ite (by rw [netOp]) (fun kind => ?_) fun _ => ?_
  · exact processSequenced_tracks inner packets like fun next inner =>
      (records (.inl inner)).2.2.1 kind next
  refine Follows.ite (by rw [netOp]) (fun kind => ?_) fun _ => ?_
  · exact processOversized_tracks inner stepwise packets like (fits kind) fun next =>
      (records (.inr kind)).2.2.2 kind next
  refine Follows.ite (by rw [netOp]) (fun _ => ?_) fun _ => ?_
  · exact processSessionRequest_tracks packets header like
  refine Follows.ite (by rw [netOp]) (fun _ => ?_) fun _ => ?_
  · exact processSessionResponse_tracks packets header like
  refine Follows.ite (by rw [netOp]) (fun kind => ?_) fun _ => ?_
  · exact processSessionDisconnect_tracks packets like fun inner => long inner kind
  · exact Traced.tracks_pure like

/-- Processing goes alike for alike packets, by induction on the depth of inner packets. -/
theorem processPacket_tracks (fuel : Nat) (packets : p.Alike q) (header : Option IPHeader)
    (like : s.Alike t)
    : Tracks (processPacket context fuel p header) s (processPacket context fuel q header) t := by
  induction fuel generalizing p q header s t with
  | zero => exact Traced.follows_fault
  | succ fuel ih =>
      refine Traced.follows_get_bind (Traced.follows_emit_bind (.processing ?_) fun keeps => ?_)
      · obtain ⟨g, rfl, fragments⟩ := like
        intro fits kind next
        exact fragments.fits packets
          (fits (packets.netOp.symm.trans kind) (packets.arqSeq.symm.trans next))
      · exact processNetOpCode_tracks (fun _ _ _ _ packets like => ih packets none like)
          (fun p => processPacket_stepwise fuel p none) packets header like keeps

-----------------------------------------------------------------------------------------
-- Whole calls
-----------------------------------------------------------------------------------------

/-- Giving up skips the same numbers, by induction on how many. -/
theorem skipMissing_tracks (steps : Nat) (like : s.Alike t)
    : Tracks (skipMissing steps) s (skipMissing steps) t := by
  induction steps generalizing s t with
  | zero => exact Traced.follows_fault
  | succ steps ih =>
      obtain ⟨g, rfl, fragments⟩ := like
      refine Traced.follows_get_bind ?_
      simp only
      cases s.cache.find? s.arqSeqExp with
      | some entry => exact Traced.tracks_pure ⟨g, rfl, fragments⟩
      | none =>
          refine Traced.follows_emit_bind (.skipping _ _) fun _ => ?_
          exact Traced.follows_modify_bind (ih ⟨g, rfl, fragments⟩)

theorem deletePacket_mem_iff {w v : List StreamEvent} (events : List.Forall₂ LikeEvent w v)
    (seq : UInt16)
    : .deletePacket seq ∈ v ↔ .deletePacket seq ∈ w := by
  induction events with
  | nil => exact Iff.rfl
  | cons like _ ih =>
      rw [List.mem_cons, List.mem_cons, ih, eq_comm, like.deletePacket_iff, eq_comm]

/-- Replaying an entry ends at the same place of the cache. -/
theorem replay_tracks (fuel : Nat) (seq : UInt16) (packet : EQProtocolPacket) (like : s.Alike t)
    : Follows sideBySide Eq (replay context fuel seq packet) s (replay context fuel seq packet)
        t := by
  obtain ⟨g, rfl, fragments⟩ := like
  have inside
      : { s with replaying := some seq }.Alike { s with fragment := g, replaying := some seq } :=
    ⟨g, rfl, fragments⟩
  refine Traced.follows_modify_bind ?_
  refine Follows.bind (processPacket_tracks fuel (.inl rfl) none inside).listen ?_
  rintro ⟨_, seen⟩ ⟨_, seen'⟩ u v ⟨_, events⟩ ⟨g, rfl, fragments⟩
  refine Follows.ite (deletePacket_mem_iff events seq).symm (fun _ => Traced.follows_fault) fun _ => ?_
  refine Traced.follows_get_bind ?_
  refine Traced.follows_emit_bind (.advancing _ _) fun _ => ?_
  refine Traced.follows_emit_bind (.same _) fun _ => ?_
  exact Traced.follows_modify_bind (Traced.follows_pure rfl ⟨g, rfl, fragments⟩)

/-- The followers of a packet are replayed alike, by induction on their number. -/
theorem follow_tracks (fuel steps : Nat) (position : Option UInt16) (like : s.Alike t)
    : Tracks (follow context fuel steps position) s (follow context fuel steps position) t := by
  induction steps generalizing position s t with
  | zero => exact Traced.follows_fault
  | succ steps ih =>
      cases position with
      | none => exact Traced.tracks_pure like
      | some seq =>
          obtain ⟨g, rfl, fragments⟩ := like
          refine Traced.follows_get_bind ?_
          simp only
          cases s.cache.find? seq with
          | none => exact Traced.follows_fault
          | some packet =>
              refine Follows.ite Iff.rfl (fun _ => Traced.tracks_pure ⟨g, rfl, fragments⟩) fun _ => ?_
              refine Follows.ite Iff.rfl (fun _ => ?_) fun _ => ?_
              · refine Follows.bind (replay_tracks fuel seq packet ⟨g, rfl, fragments⟩) ?_
                rintro next _ u v rfl like
                exact ih next like
              · refine Traced.follows_emit_bind (.same _) fun _ => ?_
                exact Traced.tracks_modify ⟨g, rfl, fragments⟩

theorem processCache_tracks (fuel : Nat) (like : s.Alike t)
    : Tracks (processCache context fuel) s (processCache context fuel) t := by
  have ⟨g, same, fragments⟩ := like
  subst same
  refine Traced.follows_get_bind ?_
  refine Follows.bind (Follows.when Iff.rfl like fun _ => skipMissing_tracks _ like) ?_
  rintro _ _ u v _ ⟨g, rfl, fragments⟩
  exact Traced.follows_get_bind (follow_tracks fuel fuel _ ⟨g, rfl, fragments⟩)

theorem handlePacket_tracks (fuel : Nat) (header : IPHeader) (datagram : Bytes)
    (like : s.Alike t)
    : Tracks (handlePacket context fuel header datagram) s
        (handlePacket context fuel header datagram) t := by
  have ⟨g, same, fragments⟩ := like
  subst same
  refine Traced.follows_get_bind ?_
  have gates : accept context { s with fragment := g } header (.ofDatagram datagram)
      = accept context s header (.ofDatagram datagram) := rfl
  rw [gates]
  cases accept context s header (.ofDatagram datagram) with
  | none => exact Traced.tracks_pure like
  | some packet =>
      refine Follows.bind (processPacket_tracks fuel (.inl rfl) (some header) like) ?_
      rintro _ _ u v _ ⟨g, rfl, fragments⟩
      refine Traced.follows_get_bind ?_
      exact Follows.when Iff.rfl ⟨g, rfl, fragments⟩ fun _ =>
        processCache_tracks fuel ⟨g, rfl, fragments⟩

theorem arrive_tracks (fuel : Nat) (arrival : Arrival) (like : s.Alike t)
    : Tracks (arrive context fuel arrival) s (arrive context fuel arrival) t := by
  cases arrival with
  | packet header datagram => exact handlePacket_tracks fuel header datagram like
  | sessionKey sessionId streamid key =>
      obtain ⟨g, rfl, fragments⟩ := like
      refine Traced.tracks_modify ⟨g, ?_, ?_⟩
      · simp only [receiveSessionKey]
        split <;> rfl
      · simp only [receiveSessionKey]
        split <;> exact fragments
  | close sessionId => exact close_tracks sessionId like

/-- Like streams take the same calls alike, one after another. -/
theorem run_tracks (fuel : Nat) (arrivals : List Arrival) (like : s.Alike t)
    : Tracks (run context fuel arrivals) s (run context fuel arrivals) t :=
  Follows.forEach (I := Eq) (List.forall₂_same.mpr fun _ _ => rfl)
    (fun arrival _ _ _ same like => same ▸ arrive_tracks fuel arrival like) like

/-- Like streams dispatch the same messages on the same calls, while what is read of a packet
lies inside it.
-/
theorem run_messages (fuel : Nat) (arrivals : List Arrival) (like : s.Alike t)
    {s' : EQPacketStream} {w : List StreamEvent}
    (completed : run context fuel arrivals s = .ok ((), s', w)) (keeps : ∀ e ∈ w, KeepsToItself e)
    : ∃ t' v, run context fuel arrivals t = .ok ((), t', v) ∧ messages v = messages w := by
  obtain ⟨_, t', v, completed', _, _, events⟩ :=
    run_tracks fuel arrivals like () s' w completed keeps
  exact ⟨t', v, completed', messages_eq events⟩

/-- Nothing is cached, and no message is under way. -/
structure HoldsNothing (s : EQPacketStream) : Prop where
  cache : s.cache = .empty
  fragment : s.fragment.dataSize = 0

instance (s : EQPacketStream) : Decidable s.HoldsNothing :=
  decidable_of_iff (s.cache = .empty ∧ s.fragment.dataSize = 0)
    ⟨fun both => ⟨both.1, both.2⟩, fun holds => ⟨holds.cache, holds.fragment⟩⟩

-----------------------------------------------------------------------------------------
-- What a stream keeps of its construction
-----------------------------------------------------------------------------------------

/-- The stream is of this identity, with the tracking that its context gives it; it latches only
while it tracks, and its fragment buffer is as it was constructed until something is allocated.
-/
structure Constructed (context : StreamContext) (streamid : EQStreamID) (dir : UInt8)
    (arqSeqGiveUp : UInt16) (s : EQPacketStream)
    : Prop where
  streamid : s.streamid = streamid
  dir : s.dir = dir
  arqSeqGiveUp : s.arqSeqGiveUp = arqSeqGiveUp
  sessionTracking : s.sessionTracking = context.sessionTracking
  latch : s.sessionTracking = false → s.sessionClientPort = 0 ∧ s.sessionClientIP = 0
  buffer : s.fragment.dataAllocSize = 0 → s.fragment = .fresh

variable {streamid : EQStreamID} {dir : UInt8} {arqSeqGiveUp : UInt16}

theorem constructed_fresh (context : StreamContext) (streamid : EQStreamID) (dir : UInt8)
    (arqSeqGiveUp : UInt16)
    : Constructed context streamid dir arqSeqGiveUp
        (fresh streamid dir arqSeqGiveUp context.sessionTracking) :=
  ⟨rfl, rfl, rfl, rfl, fun _ => ⟨rfl, rfl⟩, fun _ => rfl⟩

theorem addFragment_unallocated {f : EQPacketFragmentSequence} {packet : EQProtocolPacket}
    (unallocated : (f.addFragment packet).1.dataAllocSize = 0)
    (buffer : f.dataAllocSize = 0 → f = .fresh)
    : (f.addFragment packet).1 = .fresh := by
  have released : f.reset.dataAllocSize = 0 → f.reset = .fresh := by
    intro none
    rw [buffer none]
    rfl
  rcases f.addFragment_cases packet with
    ⟨_, _, result⟩ | ⟨empty, opens, _⟩ | ⟨_, _, result⟩ | ⟨started, _, result⟩
  · rw [result] at unallocated ⊢
    exact released unallocated
  · have room := (EQPacketFragmentSequence.buffers_addFirst empty opens).room
    rw [unallocated, UInt32.toNat_zero] at room
    refine absurd (UInt32.toNat_inj.mp ?_) opens.1
    rw [UInt32.toNat_zero]
    omega
  · rw [result] at unallocated ⊢
    exact released unallocated
  · rw [result] at unallocated
    rw [buffer unallocated] at started
    exact absurd rfl started

theorem Step.constructed {w : List StreamEvent} (step : Step context s w t)
    (constructed : Constructed context streamid dir arqSeqGiveUp s)
    : Constructed context streamid dir arqSeqGiveUp t := by
  obtain ⟨identity, side, giveUp, tracking, latch, buffer⟩ := constructed
  have released : s.fragment.reset.dataAllocSize = 0 → s.fragment.reset = .fresh := by
    intro unallocated
    rw [buffer unallocated]
    rfl
  cases step with
  | packet step =>
      cases step with
      | fragment =>
          exact ⟨identity, side, giveUp, tracking, latch,
            fun none => addFragment_unallocated none buffer⟩
      | emptied => exact ⟨identity, side, giveUp, tracking, latch, released⟩
      | latch tracked =>
          refine ⟨identity, side, giveUp, tracking, fun untracked => ?_, buffer⟩
          cases tracked.symm.trans untracked
      | closed => exact ⟨identity, side, giveUp, rfl, fun _ => ⟨rfl, rfl⟩, released⟩
      | _ => exact ⟨identity, side, giveUp, tracking, latch, buffer⟩
  | closed => exact ⟨identity, side, giveUp, rfl, fun _ => ⟨rfl, rfl⟩, released⟩
  | keyed sessionId other key =>
      unfold receiveSessionKey
      split <;> exact ⟨identity, side, giveUp, tracking, latch, buffer⟩
  | _ => exact ⟨identity, side, giveUp, tracking, latch, buffer⟩

theorem Steps.constructed {w : List StreamEvent} (steps : Steps context s w t)
    (constructed : Constructed context streamid dir arqSeqGiveUp s)
    : Constructed context streamid dir arqSeqGiveUp t := by
  induction steps with
  | refl => exact constructed
  | tail _ last ih => exact last.constructed ih

end EQPacketStream
end Scry
