import Mathlib.Data.List.Infix

/-! The envelope stream of one client: numbering, the buffer before live tailing, and the ring
buffer a resume replays from.
-/

namespace Scry

/-- `seq::v1::Envelope`, over what it carries. -/
structure Envelope (B : Type) where
  seq : Nat
  serverTsMs : Int
  body : B
  deriving DecidableEq

/-- `IEnvelopeSink`: a socket, or nothing while detached. -/
inductive EnvelopeSink
  | noop
  | webSocket (sock : Nat)
  deriving DecidableEq

/-- The stream part of `SessionAdapter`. `history` is no field of the source: it keeps every
envelope the session emitted, of which the ring buffer holds the latest.
-/
structure SessionAdapter (B : Type) where
  sink : EnvelopeSink
  sessionId : String
  subscribed : Bool
  liveTailing : Bool
  seq : Nat
  buffered : List B
  ringBuffer : List (Envelope B)
  history : List (Envelope B)
  deriving DecidableEq

/-- The cap on the ring buffer's length. -/
def kMaxEntries : Nat := 10000

/-- The cap on the age of what the ring buffer holds. -/
def kWindowMs : Int := 30 * 1000

namespace SessionAdapter

variable {B : Type}

/-- The constructor, with the id the server seeds. -/
def fresh (sink : EnvelopeSink) (sessionId : String) : SessionAdapter B :=
  { sink, sessionId
    subscribed := false
    liveTailing := false
    seq := 0
    buffered := []
    ringBuffer := []
    history := [] }

/-- The loop that drops what is older than the window. -/
def dropExpired (cutoff : Int) : List (Envelope B) → List (Envelope B)
  | [] => []
  | front :: rest => if front.serverTsMs < cutoff then dropExpired cutoff rest else front :: rest

/-- The loop that drops what is beyond the cap. -/
def dropExcess : List (Envelope B) → List (Envelope B)
  | [] => []
  | front :: rest => if rest.length + 1 > kMaxEntries then dropExcess rest else front :: rest

/-- `emitEnvelope`: the adapter after it and the envelope its sink got. -/
def emitEnvelope (a : SessionAdapter B) (body : B) (now : Int)
    : SessionAdapter B × List (Envelope B) :=
  let env := { seq := a.seq + 1, serverTsMs := now, body }
  let ring := dropExcess (dropExpired (now - kWindowMs) (a.ringBuffer ++ [env]))
  ({ a with seq := a.seq + 1, ringBuffer := ring, history := a.history ++ [env] }, [env])

/-- `replaySince`: the envelopes its sink gets. -/
def replaySince (a : SessionAdapter B) (lastSeq : Nat) : List (Envelope B) :=
  a.ringBuffer.filter fun env => env.seq > lastSeq

/-- `sendOrBuffer`. -/
def sendOrBuffer (a : SessionAdapter B) (body : B) (now : Int)
    : SessionAdapter B × List (Envelope B) :=
  if a.liveTailing then a.emitEnvelope body now
  else ({ a with buffered := a.buffered ++ [body] }, [])

/-- Emit bodies in turn, reading the clock for each. -/
def emitAll (a : SessionAdapter B) (clock : Nat → Int)
    : List B → SessionAdapter B × List (Envelope B)
  | [] => (a, [])
  | body :: rest =>
      let (next, sent) := a.emitEnvelope body (clock 0)
      let (last, later) := next.emitAll (fun n => clock (n + 1)) rest
      (last, sent ++ later)

/-- The first `Subscribe`, which starts streaming: the snapshot goes out at once, the other
initial envelopes wait behind whatever was buffered before, and then all of them drain.
-/
def startStreaming (a : SessionAdapter B) (snapshot : B) (initial : List B)
    (clock : Nat → Int)
    : SessionAdapter B × List (Envelope B) :=
  let (shown, first) := { a with subscribed := true }.emitEnvelope snapshot (clock 0)
  let (drained, later) :=
    shown.emitAll (fun n => clock (n + 1)) (shown.buffered ++ initial)
  ({ drained with buffered := [], liveTailing := true }, first ++ later)

/-- A slot that sends a snapshot, once there has been a `Subscribe`. -/
def resendSnapshot (a : SessionAdapter B) (snapshot : B) (now : Int)
    : SessionAdapter B × List (Envelope B) :=
  if a.subscribed then a.emitEnvelope snapshot now else (a, [])

-----------------------------------------------------------------------------------------
-- What the ring buffer holds
-----------------------------------------------------------------------------------------

/-- The session's envelopes are numbered from one without a gap, and the ring buffer holds
the latest of them: at most the cap, and none only if there is none.
-/
structure Resumable (a : SessionAdapter B) : Prop where
  numbered : a.history.map (·.seq) = List.range' 1 a.seq
  latest : a.ringBuffer <:+ a.history
  capped : a.ringBuffer.length ≤ kMaxEntries
  kept : a.history ≠ [] → a.ringBuffer ≠ []

/-- One adapter after another, with what its sink got in between: nothing but what the
session emitted.
-/
structure Emits (a b : SessionAdapter B) (sent : List (Envelope B)) : Prop where
  sink : b.sink = a.sink
  sessionId : b.sessionId = a.sessionId
  history : b.history = a.history ++ sent
  resumable : a.Resumable → b.Resumable

theorem resumable_fresh (sink : EnvelopeSink) (sessionId : String)
    : (fresh sink sessionId : SessionAdapter B).Resumable where
  numbered := rfl
  latest := List.suffix_rfl
  capped := Nat.zero_le _
  kept := fun h => absurd rfl h

theorem Emits.refl (a : SessionAdapter B) : a.Emits a [] :=
  ⟨rfl, rfl, (List.append_nil _).symm, id⟩

theorem Emits.trans {a b c : SessionAdapter B} {first later : List (Envelope B)}
    (h : a.Emits b first) (k : b.Emits c later)
    : a.Emits c (first ++ later) where
  sink := k.sink.trans h.sink
  sessionId := k.sessionId.trans h.sessionId
  history := by rw [k.history, h.history, List.append_assoc]
  resumable := fun ha => k.resumable (h.resumable ha)

/-- Trimming by age keeps a tail. -/
theorem dropExpired_suffix (cutoff : Int) (ring : List (Envelope B))
    : dropExpired cutoff ring <:+ ring := by
  induction ring with
  | nil => exact List.suffix_rfl
  | cons front rest ih =>
      unfold dropExpired
      split
      · exact ih.trans (List.suffix_cons front rest)
      · exact List.suffix_rfl

/-- Trimming by length keeps a tail. -/
theorem dropExcess_suffix (ring : List (Envelope B)) : dropExcess ring <:+ ring := by
  induction ring with
  | nil => exact List.suffix_rfl
  | cons front rest ih =>
      unfold dropExcess
      split
      · exact ih.trans (List.suffix_cons front rest)
      · exact List.suffix_rfl

theorem dropExcess_length (ring : List (Envelope B))
    : (dropExcess ring).length ≤ kMaxEntries := by
  induction ring with
  | nil => exact Nat.zero_le _
  | cons front rest ih =>
      unfold dropExcess
      split
      · exact ih
      · rename_i hshort
        rw [List.length_cons]
        omega

/-- The newest envelope is never too old, so trimming by age never empties the buffer. -/
theorem dropExpired_snoc_ne_nil {cutoff : Int} {env : Envelope B}
    (h : cutoff ≤ env.serverTsMs) (ring : List (Envelope B))
    : dropExpired cutoff (ring ++ [env]) ≠ [] := by
  induction ring with
  | nil => simp [dropExpired, Int.not_lt.mpr h]
  | cons front rest ih =>
      rw [List.cons_append]
      unfold dropExpired
      split
      · exact ih
      · simp

theorem dropExcess_ne_nil {ring : List (Envelope B)} (h : ring ≠ []) : dropExcess ring ≠ [] := by
  induction ring with
  | nil => exact absurd rfl h
  | cons front rest ih =>
      unfold dropExcess
      split
      · rename_i hlong
        apply ih
        intro hnil
        simp [hnil, kMaxEntries] at hlong
      · simp

/-- Emitting an envelope sends it and keeps what the ring buffer is for. -/
theorem emits_emitEnvelope (a : SessionAdapter B) (body : B) (now : Int)
    : a.Emits (a.emitEnvelope body now).1 (a.emitEnvelope body now).2 where
  sink := rfl
  sessionId := rfl
  history := rfl
  resumable := by
    intro h
    have hfresh : now - kWindowMs ≤ now := by
      unfold kWindowMs
      omega
    refine ⟨?_, ?_, dropExcess_length _, ?_⟩
    · simp only [emitEnvelope, List.map_append, h.numbered, List.map_singleton]
      rw [List.range'_concat, Nat.one_mul, Nat.add_comm 1]
    · have htrim := (dropExcess_suffix _).trans
        (dropExpired_suffix (now - kWindowMs)
          (a.ringBuffer ++ [({ seq := a.seq + 1, serverTsMs := now, body } : Envelope B)]))
      obtain ⟨older, holder⟩ := h.latest
      refine htrim.trans ⟨older, ?_⟩
      rw [← List.append_assoc, holder]
      rfl
    · intro _
      exact dropExcess_ne_nil (dropExpired_snoc_ne_nil hfresh a.ringBuffer)

/-- Buffering a body sends nothing. -/
theorem emits_sendOrBuffer (a : SessionAdapter B) (body : B) (now : Int)
    : a.Emits (a.sendOrBuffer body now).1 (a.sendOrBuffer body now).2 := by
  unfold sendOrBuffer
  split
  · exact a.emits_emitEnvelope body now
  · exact ⟨rfl, rfl, (List.append_nil _).symm, fun h => ⟨h.numbered, h.latest, h.capped, h.kept⟩⟩

theorem emits_emitAll (a : SessionAdapter B) (clock : Nat → Int) (bodies : List B)
    : a.Emits (a.emitAll clock bodies).1 (a.emitAll clock bodies).2 := by
  induction bodies generalizing a clock with
  | nil => exact .refl a
  | cons body rest ih =>
      exact (a.emits_emitEnvelope body (clock 0)).trans (ih _ fun n => clock (n + 1))

theorem emits_startStreaming (a : SessionAdapter B) (snapshot : B) (initial : List B)
    (clock : Nat → Int)
    : a.Emits (a.startStreaming snapshot initial clock).1
        (a.startStreaming snapshot initial clock).2 := by
  have hopen : a.Emits { a with subscribed := true } [] :=
    ⟨rfl, rfl, (List.append_nil _).symm, fun h => ⟨h.numbered, h.latest, h.capped, h.kept⟩⟩
  have hshown := emits_emitEnvelope { a with subscribed := true } snapshot (clock 0)
  have hdrained := emits_emitAll ({ a with subscribed := true }.emitEnvelope snapshot (clock 0)).1
    (fun n => clock (n + 1)) (a.buffered ++ initial)
  have hall := (hopen.trans hshown).trans hdrained
  exact ⟨hall.sink, hall.sessionId, hall.history, fun h =>
    have hlast := hall.resumable h
    ⟨hlast.numbered, hlast.latest, hlast.capped, hlast.kept⟩⟩

theorem emits_resendSnapshot (a : SessionAdapter B) (snapshot : B) (now : Int)
    : a.Emits (a.resendSnapshot snapshot now).1 (a.resendSnapshot snapshot now).2 := by
  unfold resendSnapshot
  split
  · exact a.emits_emitEnvelope snapshot now
  · exact .refl a

-----------------------------------------------------------------------------------------
-- Replaying
-----------------------------------------------------------------------------------------

/-- Among envelopes numbered without a gap, those past a number are a tail. -/
theorem filter_past {envs : List (Envelope B)} {first : Nat} (past : Nat)
    (h : envs.map (·.seq) = List.range' (first + 1) envs.length)
    : (envs.filter fun env => env.seq > past) = envs.drop (past - first) := by
  induction envs generalizing first with
  | nil => simp
  | cons env rest ih =>
      rw [List.map_cons, List.length_cons, List.range'_succ, List.cons.injEq] at h
      obtain ⟨hseq, hrest⟩ := h
      have ih := ih hrest
      by_cases hp : first < past
      · have : past - first = past - (first + 1) + 1 := by omega
        rw [this, List.drop_succ_cons, ← ih, List.filter_cons_of_neg]
        simp
        omega
      · have hzero : past - first = 0 := by omega
        have hlater : past - (first + 1) = 0 := by omega
        rw [hlater, List.drop_zero] at ih
        rw [hzero, List.drop_zero, List.filter_cons_of_pos, ih]
        simp
        omega

/-- The ring buffer's numbers run up to the last one emitted. -/
theorem Resumable.ring_numbered {a : SessionAdapter B} (h : a.Resumable)
    : a.ringBuffer.length ≤ a.seq
      ∧ a.ringBuffer = a.history.drop (a.seq - a.ringBuffer.length)
      ∧ a.ringBuffer.map (·.seq)
          = List.range' (a.seq - a.ringBuffer.length + 1) a.ringBuffer.length := by
  have hlength : a.history.length = a.seq := by
    simpa using congrArg List.length h.numbered
  have hle := h.latest.length_le
  rw [hlength] at hle
  have hdrop := List.suffix_iff_eq_drop.mp h.latest
  rw [hlength] at hdrop
  refine ⟨hle, hdrop, ?_⟩
  conv_lhs => rw [hdrop]
  rw [List.map_drop, h.numbered, List.drop_range', Nat.add_comm]
  congr 1 <;> omega

/-- Replaying past a number the buffer reaches down to sends exactly what the session
emitted past it.
-/
theorem Resumable.replaySince_eq {a : SessionAdapter B} (h : a.Resumable) {lastSeq : Nat}
    (reaches : ∀ front ∈ a.ringBuffer.head?, front.seq ≤ lastSeq + 1)
    : a.replaySince lastSeq = a.history.drop lastSeq := by
  obtain ⟨hle, hdrop, hnumbers⟩ := h.ring_numbered
  cases hr : a.ringBuffer with
  | nil =>
      have hnone : a.history = [] := by
        by_contra hsome
        exact h.kept hsome hr
      simp [replaySince, hr, hnone]
  | cons front rest =>
      have hfirst : front.seq = a.seq - a.ringBuffer.length + 1 := by
        rw [hr, List.map_cons, List.length_cons, List.range'_succ, List.cons.injEq] at hnumbers
        rw [hr, List.length_cons]
        exact hnumbers.1
      have hfront := reaches front (by simp [hr])
      unfold replaySince
      rw [filter_past lastSeq hnumbers, hdrop, List.drop_drop]
      congr 1
      rw [← hdrop]
      omega

end SessionAdapter

end Scry
