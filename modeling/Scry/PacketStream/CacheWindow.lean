import Scry.Library.Serial
import Scry.PacketStream.Steps

/-! The out-of-order cache and the window of future packets.
The stream's own window test also takes packets far in the past, and packets inside other
packets can move the expected number under the cache; where neither happens, the cache holds
future packets only.
-/

namespace Scry
namespace EQPacketStream

variable {context : StreamContext}

/-- The number lies in the window that starts at the expected one. -/
def InWindow (arqSeqExp seq : UInt16) : Prop := Serial.ahead arqSeqExp seq < arqSeqWrapCutoff

instance (arqSeqExp seq : UInt16) : Decidable (InWindow arqSeqExp seq) :=
  inferInstanceAs (Decidable (_ < _))

/-- The entry under replay is at the expected number, or the iterator will reach it. -/
def FollowsExpected (s : EQPacketStream) : Prop :=
  s.arqSeqExp ∈ s.cache.keys
    → s.replaying = some s.arqSeqExp
      ∨ s.arqSeqExp = 0
      ∨ s.replaying.bind s.cache.next? = some s.arqSeqExp

instance (s : EQPacketStream) : Decidable s.FollowsExpected :=
  inferInstanceAs (Decidable (_ → _))

/-- What a step must not do for the cache to stay in its window: store a packet from beyond
it, take an expected packet from elsewhere while the cache holds that number, start a session
over entries from beyond its window, or leave a replay whose iterator misses the expected
entry.
-/
def WindowGuard : StreamEvent → Prop
  | .processing s packet =>
      (s.Awaits packet → InWindow s.arqSeqExp packet.arqSeq)
      ∧ (s.Expects packet → s.arqSeqExp ∈ s.cache.keys → s.replaying = some s.arqSeqExp)
      ∧ (Requests packet ∨ Responds packet
          → ∀ seq ∈ s.cache.keys, InWindow 0 seq ∨ s.replaying = some seq)
  | .advancing s => s.FollowsExpected
  | _ => True

instance : DecidablePred WindowGuard
  | .processing s packet =>
      -- the cached numbers are enumerated, not all the numbers there are
      have : Decidable (∀ seq ∈ s.cache.keys, InWindow 0 seq ∨ s.replaying = some seq) :=
        List.decidableBAll _ _
      inferInstanceAs (Decidable (
        (s.Awaits packet → InWindow s.arqSeqExp packet.arqSeq)
        ∧ (s.Expects packet → s.arqSeqExp ∈ s.cache.keys → s.replaying = some s.arqSeqExp)
        ∧ (Requests packet ∨ Responds packet
            → ∀ seq ∈ s.cache.keys, InWindow 0 seq ∨ s.replaying = some seq)))
  | .advancing s => inferInstanceAs (Decidable s.FollowsExpected)
  | .skipping _ | .dispatchPacket _ | .fragmentCopy _ | .completedOversized _
  | .sessionKey _ _ _ | .closing _ _ | .deletePacket _ => isTrue trivial

-----------------------------------------------------------------------------------------
-- The invariant
-----------------------------------------------------------------------------------------

/-- Entries are stored under their own numbers, and apart from the one under replay these lie
in the window.
-/
structure Windowed (s : EQPacketStream) : Prop where
  named : ∀ seq packet, s.cache.find? seq = some packet → packet.arqSeq = seq
  inside : ∀ seq ∈ s.cache.keys, InWindow s.arqSeqExp seq ∨ s.replaying = some seq

theorem windowed_of_empty {s : EQPacketStream} (empty : s.cache = .empty) : s.Windowed where
  named := by simp [empty]
  inside := by simp [empty]

/-- The invariant reads only the cache, the expected number and the replay. -/
theorem Windowed.congr {s t : EQPacketStream} (windowed : s.Windowed) (cache : t.cache = s.cache)
    (expected : t.arqSeqExp = s.arqSeqExp) (replaying : t.replaying = s.replaying)
    : t.Windowed where
  named := by simpa only [cache] using windowed.named
  inside := by simpa only [cache, expected, replaying] using windowed.inside

/-- Moving on past a number the cache has not got keeps the rest in the window. -/
theorem Windowed.advanced {s : EQPacketStream} (windowed : s.Windowed)
    (taken : s.arqSeqExp ∈ s.cache.keys → s.replaying = some s.arqSeqExp)
    : s.advanced.Windowed where
  named := windowed.named
  inside := by
    intro seq member
    change InWindow (s.arqSeqExp + 1) seq ∨ s.replaying = some seq
    by_cases here : seq = s.arqSeqExp
    · subst here
      exact Or.inr (taken member)
    · refine (windowed.inside seq member).imp_left ?_
      intro near
      have nearer := Serial.ahead_succ here
      unfold InWindow at near ⊢
      omega

/-- Storing a packet of the window keeps the cache in it. -/
theorem Windowed.stored {s : EQPacketStream} {packet : EQProtocolPacket}
    (windowed : s.Windowed) (near : InWindow s.arqSeqExp packet.arqSeq)
    : (s.stored packet.arqSeq packet).Windowed where
  named := by
    intro seq found entry
    change (s.cache.insert packet.arqSeq packet.copy).find? seq = some found at entry
    by_cases same : seq = packet.arqSeq
    · subst same
      rw [OrderedMap.find?_insert_self, Option.some.injEq] at entry
      rw [← entry, EQProtocolPacket.copy_arqSeq]
    · rw [OrderedMap.find?_insert_of_ne _ _ same] at entry
      exact windowed.named seq found entry
  inside := by
    intro seq member
    change seq ∈ (s.cache.insert packet.arqSeq packet.copy).keys at member
    rcases OrderedMap.mem_keys_insert.mp member with rfl | older
    · exact Or.inl near
    · exact windowed.inside seq older

/-- A new session keeps the entries that lie in its window. -/
theorem Windowed.restarted {s t : EQPacketStream} (windowed : s.Windowed)
    (cache : t.cache = s.cache) (expected : t.arqSeqExp = 0) (replaying : t.replaying = s.replaying)
    (near : ∀ seq ∈ s.cache.keys, InWindow 0 seq ∨ s.replaying = some seq)
    : t.Windowed where
  named := by simpa only [cache] using windowed.named
  inside := by simpa only [cache, expected, replaying] using near

/-- Erasing an entry keeps the invariant; the entry under replay may be the one. -/
theorem Windowed.erased {s : EQPacketStream} {seq : UInt16} (windowed : s.Windowed)
    (position : s.replaying = none ∨ s.replaying = some seq)
    : ({ s with cache := s.cache.erase seq, replaying := none } : EQPacketStream).Windowed where
  named := by
    intro other packet entry
    by_cases same : other = seq
    · subst same
      simp [OrderedMap.find?_erase_self] at entry
    · exact windowed.named other packet (by simpa [OrderedMap.find?_erase_of_ne _ same] using entry)
  inside := by
    intro other member
    obtain ⟨ne, member⟩ := OrderedMap.mem_keys_erase.mp member
    refine Or.inl ((windowed.inside other member).resolve_right ?_)
    intro replayed
    rcases position with outside | here
    · simp [outside] at replayed
    · rw [here, Option.some.injEq] at replayed
      exact ne replayed.symm

theorem PacketStep.windowed {s t : EQPacketStream} {w : List StreamEvent}
    (step : PacketStep context s w t) (guard : ∀ e ∈ w, WindowGuard e) (windowed : s.Windowed)
    : t.Windowed := by
  cases step with
  | visit => exact windowed
  | dispatch => exact windowed
  | expected kind next =>
      have allowed := guard _ List.mem_cons_self
      exact windowed.advanced (allowed.2.1 (expects_of_netOp (Or.inl kind) next))
  | fragment kind next =>
      have allowed := guard _ List.mem_cons_self
      have moved := windowed.advanced (allowed.2.1 (expects_of_netOp (Or.inr kind) next))
      exact moved.congr rfl rfl rfl
  | emptied => exact windowed.congr rfl rfl rfl
  | inserted inserts =>
      have allowed := guard _ List.mem_cons_self
      exact windowed.stored (allowed.1 inserts.1)
  | replaced replaces =>
      have allowed := guard _ List.mem_cons_self
      exact windowed.stored (allowed.1 replaces.1)
  | requested requests =>
      have allowed := guard _ List.mem_cons_self
      exact windowed.restarted rfl rfl rfl (allowed.2.2 (Or.inl requests))
  | responded responds =>
      have allowed := guard _ List.mem_cons_self
      exact windowed.restarted rfl rfl rfl (allowed.2.2 (Or.inr responds))
  | latch => exact windowed.congr rfl rfl rfl
  | disconnected => exact windowed_of_empty rfl
  | closing => exact windowed
  | closed => exact windowed_of_empty rfl

theorem Step.windowed {s t : EQPacketStream} {w : List StreamEvent} (step : Step context s w t)
    (guard : ∀ e ∈ w, WindowGuard e) (windowed : s.Windowed)
    : t.Windowed := by
  cases step with
  | packet step => exact step.windowed guard windowed
  | skipped missing =>
      refine windowed.advanced ?_
      intro member
      obtain ⟨packet, found⟩ := OrderedMap.mem_keys_iff.mp member
      simp [missing] at found
  | replaying outside entry next valid =>
      refine ⟨windowed.named, ?_⟩
      intro seq member
      exact Or.inl ((windowed.inside seq member).resolve_right (by simp [outside]))
  | replayed atEntry entry => exact windowed.erased (Or.inr atEntry)
  | dropped outside entry next corrupt =>
      exact (windowed.erased (Or.inl outside)).congr rfl rfl outside
  | keyed sessionId streamid key =>
      refine windowed.congr ?_ ?_ ?_
      all_goals unfold receiveSessionKey; split <;> rfl
  | closed => exact windowed_of_empty rfl

/-- A chain of guarded steps keeps the window, by the invariant rule of chains. -/
theorem Steps.windowed {s t : EQPacketStream} {w : List StreamEvent} (steps : Steps context s w t)
    (guard : ∀ e ∈ w, WindowGuard e) (windowed : s.Windowed)
    : t.Windowed := by
  refine Traced.Chain.invariant (I := fun _ t => Windowed t) (h := []) ?_ steps guard windowed
  intro _ _ _ _ step guarded
  exact step.windowed guarded

-----------------------------------------------------------------------------------------
-- The loop over followers
-----------------------------------------------------------------------------------------

/-- The cache does not hold the expected packet. -/
def Settled (s : EQPacketStream) : Prop := s.arqSeqExp ∉ s.cache.keys

/-- A replay that is left under the guard moves the iterator to the expected entry, if the
cache still has one.
-/
theorem FollowsExpected.next {u : EQPacketStream} {seq : UInt16} (follows : u.FollowsExpected)
    (position : u.replaying = some seq) (member : u.arqSeqExp ∈ (u.cache.erase seq).keys)
    : (if u.arqSeqExp = 0 then (u.cache.erase seq).first? else u.cache.next? seq)
      = some u.arqSeqExp := by
  obtain ⟨ne, cached⟩ := OrderedMap.mem_keys_erase.mp member
  by_cases start : u.arqSeqExp = 0
  · rw [if_pos start, OrderedMap.first?_eq_some_iff]
    refine ⟨member, ?_⟩
    intro other _
    rw [start]
    exact UInt16.zero_le
  · rw [if_neg start]
    rcases follows cached with here | zero | reached
    · rw [position, Option.some.injEq] at here
      exact absurd here.symm ne
    · exact absurd zero start
    · simpa [position] using reached

/-- Under the guard the loop ends only when the expected packet is not cached, by induction
on its bound: as long as it is, the iterator stands at it.
-/
theorem follow_settled {fuel steps : Nat} {position : Option UInt16} {s t : EQPacketStream}
    {w : List StreamEvent} (windowed : s.Windowed) (outside : s.replaying = none)
    (found : s.arqSeqExp ∈ s.cache.keys → position = some s.arqSeqExp)
    (guard : ∀ e ∈ w, WindowGuard e)
    (run : follow context fuel steps position s = .ok ((), t, w))
    : t.Settled := by
  induction steps generalizing position s w with
  | zero => cases run
  | succ steps ih =>
      cases position with
      | none =>
          cases run
          intro member
          cases found member
      | some seq =>
          simp only [follow, Traced.get_bind_run] at run
          cases entry : s.cache.find? seq with
          | none =>
              simp only [entry] at run
              cases run
          | some packet =>
              have name : packet.arqSeq = seq := windowed.named seq packet entry
              simp only [entry] at run
              split_ifs at run with passed valid
              · cases run
                intro member
                have here := found member
                rw [Option.some.injEq] at here
                exact passed (name.trans here)
              · obtain ⟨next, u', early, late, replayed, rest, rfl⟩ := Traced.bind_eq_ok.mp run
                have guardEarly : ∀ e ∈ early, WindowGuard e :=
                  fun e member => guard e (List.mem_append_left _ member)
                have guardLate : ∀ e ∈ late, WindowGuard e :=
                  fun e member => guard e (List.mem_append_right _ member)
                obtain ⟨chain, again⟩ :=
                  replay_steps outside entry (not_not.mp passed) valid replayed
                obtain ⟨u, inside, processed, _, rfl, rfl, rfl⟩ := replay_eq_ok.mp replayed
                have follows : u.FollowsExpected := guardEarly (.advancing u) (by simp)
                have position : u.replaying = some seq := (processPacket_steps processed).replaying_eq
                exact ih (chain.windowed guardEarly windowed) again
                  (follows.next position) guardLate rest
              · simp only [Traced.emit_bind_run, Traced.modify_run] at run
                cases run
                have here : seq = s.arqSeqExp := name.symm.trans (not_not.mp passed)
                intro member
                exact (OrderedMap.mem_keys_erase.mp member).1 here.symm

/-- `processCache` settles the stream: it starts at the expected entry if there is one. -/
theorem processCache_settled {fuel : Nat} {s t : EQPacketStream} {w : List StreamEvent}
    (windowed : s.Windowed) (outside : s.replaying = none) (guard : ∀ e ∈ w, WindowGuard e)
    (run : processCache context fuel s = .ok ((), t, w))
    : t.Settled := by
  obtain ⟨u, skips, follows, skipped, followed, rfl⟩ := processCache_eq_ok.mp run
  have steps : Steps context s skips u := (skipMissing_stepwise _).when _ _ _ _ skipped
  have guardSkips : ∀ e ∈ skips, WindowGuard e :=
    fun e member => guard e (List.mem_append_left _ member)
  have still : u.replaying = none := (skipMissing_when_replaying skipped).trans outside
  refine follow_settled (steps.windowed guardSkips windowed) still ?_
    (fun e member => guard e (List.mem_append_right _ member)) followed
  intro member
  obtain ⟨packet, entry⟩ := OrderedMap.mem_keys_iff.mp member
  simp [entry]

/-- Between calls: the cache is in its window and does not hold the expected packet. -/
structure WindowSettled (s : EQPacketStream) : Prop where
  windowed : s.Windowed
  settled : s.Settled
  outside : s.replaying = none

theorem windowSettled_fresh (streamid : EQStreamID) (dir : UInt8) (arqSeqGiveUp : UInt16)
    (sessionTracking : Bool)
    : (fresh streamid dir arqSeqGiveUp sessionTracking).WindowSettled where
  windowed := windowed_of_empty rfl
  settled := by simp [Settled, fresh]
  outside := rfl

/-- A settled cache lies strictly ahead of the expected number. -/
theorem WindowSettled.inWindow {s : EQPacketStream} (h : s.WindowSettled)
    : ∀ seq ∈ s.cache.keys,
        0 < Serial.ahead s.arqSeqExp seq ∧ Serial.ahead s.arqSeqExp seq < 1024 := by
  intro seq member
  refine ⟨Serial.ahead_pos ?_, ?_⟩
  · rintro rfl
    exact h.settled member
  · exact (h.windowed.inside seq member).resolve_right (by simp [h.outside])

theorem handlePacket_windowSettled {fuel : Nat} {header : IPHeader} {datagram : Bytes}
    {s t : EQPacketStream} {w : List StreamEvent} (before : s.WindowSettled)
    (guard : ∀ e ∈ w, WindowGuard e)
    (run : handlePacket context fuel header datagram s = .ok ((), t, w))
    : t.WindowSettled := by
  obtain ⟨steps, final⟩ := handlePacket_steps before.outside run
  refine ⟨steps.windowed guard before.windowed, ?_, final⟩
  rcases handlePacket_eq_ok.mp run with
    ⟨_, rfl, rfl⟩ | ⟨packet, u, processed, cached, _, first, second, rfl⟩
  · exact before.settled
  · have inner := processPacket_steps first
    have windowed : u.Windowed :=
      inner.steps.windowed (fun e member => guard e (List.mem_append_left _ member))
        before.windowed
    by_cases nonempty : !u.cache.isEmpty
    · rw [Traced.when_pos nonempty] at second
      exact processCache_settled windowed (inner.replaying_eq.trans before.outside)
        (fun e member => guard e (List.mem_append_right _ member)) second
    · rw [Traced.when_neg nonempty] at second
      cases second
      exact OrderedMap.isEmpty_iff.mp (by simpa using nonempty) _

theorem arrive_windowSettled {fuel : Nat} {arrival : Arrival} {s t : EQPacketStream}
    {w : List StreamEvent} (before : s.WindowSettled) (guard : ∀ e ∈ w, WindowGuard e)
    (run : arrive context fuel arrival s = .ok ((), t, w))
    : t.WindowSettled := by
  obtain ⟨steps, final⟩ := arrive_steps before.outside run
  cases arrival with
  | packet header datagram => exact handlePacket_windowSettled before guard run
  | sessionKey sessionId streamid key =>
      refine ⟨steps.windowed guard before.windowed, ?_, final⟩
      cases run
      unfold receiveSessionKey
      split <;> exact before.settled
  | close sessionId =>
      refine ⟨steps.windowed guard before.windowed, ?_, final⟩
      simp only [arrive, close_run] at run
      split_ifs at run <;> cases run
      · simp [Settled, cleared]
      · exact before.settled

theorem run_windowSettled {fuel : Nat} {arrivals : List Arrival} {s t : EQPacketStream}
    {w : List StreamEvent} (before : s.WindowSettled) (guard : ∀ e ∈ w, WindowGuard e)
    (completed : run context fuel arrivals s = .ok ((), t, w))
    : t.WindowSettled := by
  induction arrivals generalizing s w with
  | nil =>
      cases completed
      exact before
  | cons arrival rest ih =>
      obtain ⟨_, u, early, late, first, second, rfl⟩ := Traced.bind_eq_ok.mp completed
      refine ih (arrive_windowSettled before ?_ first) ?_ second
      · exact fun e member => guard e (List.mem_append_left _ member)
      · exact fun e member => guard e (List.mem_append_right _ member)

/-- In every run of a new stream whose steps meet the guard, each call leaves a cache whose
numbers all lie ahead of the expected one by less than the cutoff.
-/
theorem cache_within_window (context : StreamContext) (streamid : EQStreamID) (dir : UInt8)
    (arqSeqGiveUp : UInt16) (sessionTracking : Bool) (fuel : Nat) (arrivals : List Arrival)
    {t : EQPacketStream} {w : List StreamEvent}
    (completed
      : run context fuel arrivals (fresh streamid dir arqSeqGiveUp sessionTracking)
        = .ok ((), t, w))
    (guard : ∀ e ∈ w, WindowGuard e)
    : ∀ seq ∈ t.cache.keys,
        0 < Serial.ahead t.arqSeqExp seq ∧ Serial.ahead t.arqSeqExp seq < 1024 :=
  (run_windowSettled (windowSettled_fresh _ _ _ _) guard completed).inWindow

theorem cache_within_window_gap
    : ∃ t w, run alone 50 [responseArrival, messageArrival 3] boxStream = .ok ((), t, w)
        ∧ t.cache.keys = [3]
        ∧ ∀ seq ∈ t.cache.keys,
            0 < Serial.ahead t.arqSeqExp seq ∧ Serial.ahead t.arqSeqExp seq < 1024 := by
  obtain ⟨t, w, completed, checked⟩ := Traced.exists_of_endsIn
    (run alone 50 [responseArrival, messageArrival 3] boxStream)
    (fun t w => decide (t.cache.keys = [3] ∧ ∀ e ∈ w, WindowGuard e))
    (by decide +kernel)
  obtain ⟨keys, guard⟩ := of_decide_eq_true checked
  exact ⟨t, w, completed, keys,
    cache_within_window alone .zone2client DIR_Server 32 false 50 _ completed guard⟩

/-- Thirty-two early packets make the stream give up on what is missing; packet 1024 is next
in line, and then packet 0 arrives.
-/
def oldPacketArrivals : List Arrival :=
  responseArrival :: (List.range' 992 33 ++ [0]).map messageArrival

/-- A packet a thousand numbers in the past is cached as a future one. -/
theorem cache_within_window_oldPacket
    : ∃ t w, run alone 100 oldPacketArrivals boxStream = .ok ((), t, w)
        ∧ ¬ ∀ seq ∈ t.cache.keys,
            0 < Serial.ahead t.arqSeqExp seq ∧ Serial.ahead t.arqSeqExp seq < 1024 := by
  obtain ⟨t, w, completed, checked⟩ := Traced.exists_of_endsIn
    (run alone 100 oldPacketArrivals boxStream)
    (fun t _ => decide (t.arqSeqExp = 1025 ∧ t.cache.keys = [0]))
    (by decide +kernel)
  obtain ⟨expected, keys⟩ := of_decide_eq_true checked
  refine ⟨t, w, completed, ?_⟩
  rw [expected, keys]
  intro inside
  have near : Serial.ahead 1025 0 < 1024 := (inside 0 (List.mem_singleton_self 0)).2
  exact absurd near (by decide)

end EQPacketStream
end Scry
