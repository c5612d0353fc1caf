import Mathlib.Algebra.Group.Nat.Defs
import Scry.Capture.PacketQueue

/-! The stream of an agent, read in whatever pieces the socket gives.
A stop is not modelled apart: it shuts the socket down, so that `recv` fails.
-/

namespace Scry

def SEQ_VERSION : UInt8 := 2
def SEQ_TYPE_FRAME : UInt8 := 1
def SEQ_TYPE_HELLO : UInt8 := 3
def SEQ_ENVELOPE_LEN : Nat := 8
def SEQ_FRAME_PREFIX : Nat := 12
def SEQ_HELLO_PREFIX : Nat := 8
def SEQ_MAX_PAYLOAD : Nat := SEQ_MAX_CAPLEN + SEQ_FRAME_PREFIX

/-- `rdU32`, little-endian. -/
def rdU32 (p : Bytes) : UInt32 :=
  UInt32.ofNat
    ((byteAt p 0).toNat + (byteAt p 1).toNat * 256 + (byteAt p 2).toNat * 65536
      + (byteAt p 3).toNat * 16777216)

/-- `rdU64`. -/
def rdU64 (p : Bytes) : UInt64 :=
  UInt64.ofNat ((rdU32 p).toNat + (rdU32 (p.drop 4)).toNat * 4294967296)

/-- How one call of `recv` goes: it returns up to `size + 1` bytes, is interrupted, or fails. -/
inductive RecvTurn
  | data (size : Nat)
  | interrupted
  | failed
  deriving DecidableEq

/-- A socket: what the agent sent before it closed, and how the next calls go. After these a
call returns as much as it is asked for.
-/
structure Socket where
  pending : Bytes
  turns : List RecvTurn
  deriving DecidableEq

/-- What `recv` returns; no bytes stand for 0. -/
inductive RecvResult
  | bytes (data : Bytes)
  | eintr
  | error

/-- `recv` of at most `n` bytes. -/
def Socket.recv (s : Socket) (n : Nat) : RecvResult × Socket :=
  match s.turns with
  | [] => (.bytes (s.pending.take n), { s with pending := s.pending.drop n })
  | .data size :: turns =>
      let r := min n (size + 1)
      (.bytes (s.pending.take r), { pending := s.pending.drop r, turns })
  | .interrupted :: turns => (.eintr, { s with turns })
  | .failed :: turns => (.error, { s with turns })

/-- A call that returns bytes takes them off the stream. -/
theorem Socket.recv_bytes {s t : Socket} {n : Nat} {data : Bytes}
    (returned : s.recv n = (.bytes data, t))
    : s.pending = data ++ t.pending
      ∧ data.length ≤ n
      ∧ (0 < n → data = [] → s.pending = [])
      ∧ t.turns.length ≤ s.turns.length
      ∧ ∀ turn ∈ t.turns, turn ∈ s.turns := by
  unfold recv at returned
  split at returned
  · rename_i none
    obtain ⟨same, rfl⟩ := Prod.mk.inj returned
    obtain rfl := RecvResult.bytes.inj same
    refine ⟨(List.take_append_drop _ _).symm, List.length_take_le _ _, fun asked => ?_, le_rfl,
      fun _ => id⟩
    intro empty
    exact (List.take_eq_nil_iff.mp empty).resolve_left (by omega)
  · rename_i size turns next
    obtain ⟨same, rfl⟩ := Prod.mk.inj returned
    obtain rfl := RecvResult.bytes.inj same
    refine ⟨(List.take_append_drop _ _).symm, ?_, fun asked => ?_, ?_, fun turn later => ?_⟩
    · exact (List.length_take_le _ _).trans (Nat.min_le_left _ _)
    · intro empty
      exact (List.take_eq_nil_iff.mp empty).resolve_left (by omega)
    · rw [next]
      exact Nat.le_succ _
    · rw [next]
      exact List.mem_cons_of_mem _ later
  · cases (Prod.mk.inj returned).1
  · cases (Prod.mk.inj returned).1

/-- An interrupted call only takes its turn. -/
theorem Socket.recv_eintr {s t : Socket} {n : Nat} (interrupted : s.recv n = (.eintr, t))
    : t.pending = s.pending ∧ s.turns = .interrupted :: t.turns := by
  unfold recv at interrupted
  split at interrupted
  · cases (Prod.mk.inj interrupted).1
  · cases (Prod.mk.inj interrupted).1
  · rename_i turns next
    obtain ⟨_, rfl⟩ := Prod.mk.inj interrupted
    exact ⟨rfl, next⟩
  · cases (Prod.mk.inj interrupted).1

theorem Socket.recv_error {s t : Socket} {n : Nat} (failed : s.recv n = (.error, t))
    : RecvTurn.failed ∈ s.turns := by
  unfold recv at failed
  split at failed
  · cases (Prod.mk.inj failed).1
  · cases (Prod.mk.inj failed).1
  · cases (Prod.mk.inj failed).1
  · rename_i turns next
    rw [next]
    exact List.mem_cons_self

namespace RemoteCapture

/-- `readFull`, with what it has got so far: the bytes, or nothing where it returns false. -/
def readFull (s : Socket) (n : Nat) (got : Bytes) : Option Bytes × Socket :=
  if got.length < n then
    match _called : s.recv (n - got.length) with
    | (.bytes [], t) => (none, t)
    | (.bytes (b :: data), t) => readFull t n (got ++ b :: data)
    | (.eintr, t) => readFull t n got
    | (.error, t) => (none, t)
  else (some got, s)
termination_by (n - got.length) + s.turns.length
decreasing_by
  · have turns := (Socket.recv_bytes _called).2.2.2.1
    simp only [List.length_append, List.length_cons]
    omega
  · have turns := congrArg List.length (Socket.recv_eintr _called).2
    rw [List.length_cons] at turns
    omega

/-- `readMsg`: the type and the payload, or nothing where it returns false. -/
def readMsg (s : Socket) : Option (UInt8 × Bytes) × Socket :=
  match readFull s SEQ_ENVELOPE_LEN [] with
  | (none, s) => (none, s)
  | (some env, s) =>
      if byteAt env 0 ≠ 0x53 ∨ byteAt env 1 ≠ 0x51 then (none, s)
      else if byteAt env 2 ≠ SEQ_VERSION then (none, s)
      else
        let type := byteAt env 3
        let len := (rdU32 (env.drop 4)).toNat
        if SEQ_MAX_PAYLOAD < len then (none, s)
        else if len = 0 then (some (type, []), s)
        else
          match readFull s len [] with
          | (none, s) => (none, s)
          | (some payload, s) => (some (type, payload), s)

-----------------------------------------------------------------------------------------
-- Reading in full
-----------------------------------------------------------------------------------------

variable {s t : Socket} {n : Nat} {got out : Bytes}

/-- What a full read returns is next on the stream, by induction on the calls. -/
theorem readFull_some (returned : readFull s n got = (some out, t)) (within : got.length ≤ n)
    : out.length = n
      ∧ got ++ s.pending = out ++ t.pending
      ∧ ∀ turn ∈ t.turns, turn ∈ s.turns := by
  fun_induction readFull s n got with
  | case1 s got more t called => cases (Prod.mk.inj returned).1
  | case2 s got more b data t called ih =>
      obtain ⟨stream, short, _, _, turns⟩ := Socket.recv_bytes called
      obtain ⟨length, same, later⟩ := ih returned (by
        simp only [List.length_append]
        omega)
      refine ⟨length, ?_, fun turn member => turns turn (later turn member)⟩
      rw [stream, ← List.append_assoc]
      exact same
  | case3 s got more t called ih =>
      obtain ⟨stream, turns⟩ := Socket.recv_eintr called
      obtain ⟨length, same, later⟩ := ih returned within
      refine ⟨length, stream ▸ same, fun turn member => ?_⟩
      rw [turns]
      exact List.mem_cons_of_mem _ (later turn member)
  | case4 s got more t called => cases (Prod.mk.inj returned).1
  | case5 s got enough =>
      obtain ⟨same, rfl⟩ := Prod.mk.inj returned
      obtain rfl := Option.some.inj same
      exact ⟨by omega, rfl, fun _ => id⟩

/-- Where no call fails, a full read fails only at the end of the stream. -/
theorem readFull_none (whole : RecvTurn.failed ∉ s.turns)
    (returned : (readFull s n got).1 = none)
    : got.length + s.pending.length < n := by
  fun_induction readFull s n got with
  | case1 s got more t called =>
      have ended := (Socket.recv_bytes called).2.2.1 (by omega) rfl
      rw [ended, List.length_nil]
      exact more
  | case2 s got more b data t called ih =>
      obtain ⟨stream, _, _, _, turns⟩ := Socket.recv_bytes called
      have later := ih (fun failed => whole (turns _ failed)) returned
      rw [stream]
      simp only [List.length_append] at later ⊢
      omega
  | case3 s got more t called ih =>
      obtain ⟨stream, turns⟩ := Socket.recv_eintr called
      rw [← stream]
      refine ih (fun failed => whole ?_) returned
      rw [turns]
      exact List.mem_cons_of_mem _ failed
  | case4 s got more t called => exact absurd (Socket.recv_error called) whole
  | case5 s got enough => cases returned

-----------------------------------------------------------------------------------------
-- Envelopes
-----------------------------------------------------------------------------------------

/-- A well-formed message. -/
structure Envelope where
  type : UInt8
  payload : Bytes
  fits : payload.length ≤ SEQ_MAX_PAYLOAD

/-- Four bytes, little-endian, as `sendClientHello` writes a length. -/
def wrU32 (len : Nat) : Bytes :=
  [UInt8.ofNat len, UInt8.ofNat (len / 256), UInt8.ofNat (len / 65536),
    UInt8.ofNat (len / 16777216)]

/-- The bytes of a message. -/
def Envelope.bytes (e : Envelope) : Bytes :=
  [0x53, 0x51, SEQ_VERSION, e.type] ++ wrU32 e.payload.length ++ e.payload

/-- A message starts here. -/
def StartsEnvelope (stream : Bytes) : Prop := ∃ e : Envelope, ∃ rest, stream = e.bytes ++ rest

theorem rdU32_wrU32 {len : Nat} (fits : len < 2 ^ 32) (rest : Bytes)
    : (rdU32 (wrU32 len ++ rest)).toNat = len := by
  simp only [rdU32, wrU32, List.cons_append, byteAt, List.getD_cons_zero, List.getD_cons_succ,
    UInt8.toNat_ofNat', UInt32.toNat_ofNat']
  omega

theorem wrU32_rdU32 (a b c d : UInt8) : wrU32 (rdU32 [a, b, c, d]).toNat = [a, b, c, d] := by
  have := a.toNat_lt
  have := b.toNat_lt
  have := c.toNat_lt
  have := d.toNat_lt
  simp only [rdU32, wrU32, byteAt, List.getD_cons_zero, List.getD_cons_succ, List.cons.injEq,
    and_true, UInt32.toNat_ofNat', ← UInt8.toNat_inj, UInt8.toNat_ofNat']
  omega

/-- One message is as long as it says, so that a stream starts with one at most. -/
theorem bytes_append_inj {e f : Envelope} {rest tail : Bytes}
    (same : e.bytes ++ rest = f.bytes ++ tail)
    : e = f ∧ rest = tail := by
  obtain ⟨type, payload, fits⟩ := e
  obtain ⟨other, load, bound⟩ := f
  have small : payload.length < 2 ^ 32 := lt_of_le_of_lt fits (by decide)
  have small' : load.length < 2 ^ 32 := lt_of_le_of_lt bound (by decide)
  have after := congrArg (fun stream : Bytes => rdU32 (stream.drop 4)) same
  have lengths : payload.length = load.length := by
    have left := rdU32_wrU32 small (payload ++ rest)
    have right := rdU32_wrU32 small' (load ++ tail)
    simp only [Envelope.bytes, List.append_assoc] at after
    rw [← left, ← right]
    exact congrArg UInt32.toNat after
  simp only [Envelope.bytes, List.append_assoc, List.cons_append, List.nil_append,
    List.cons.injEq, true_and, lengths] at same
  obtain ⟨rfl, same⟩ := same
  obtain ⟨rfl, rfl⟩ := List.append_inj (List.append_cancel_left same) lengths
  exact ⟨rfl, rfl⟩

theorem eq_of_length_eight {env : Bytes} (length : env.length = SEQ_ENVELOPE_LEN)
    : ∃ m q v type a b c d, env = [m, q, v, type, a, b, c, d] := by
  rcases env with
    _ | ⟨m, _ | ⟨q, _ | ⟨v, _ | ⟨type, _ | ⟨a, _ | ⟨b, _ | ⟨c, _ | ⟨d, _ | ⟨more, rest⟩⟩⟩⟩⟩⟩⟩⟩⟩
  all_goals simp only [SEQ_ENVELOPE_LEN, List.length_nil, List.length_cons] at length
  all_goals first
    | exact ⟨m, q, v, type, a, b, c, d, rfl⟩
    | omega

/-- A message of which the header and the payload are next on the stream. -/
theorem envelope_of_header (type : UInt8) (payload : Bytes) {a b c d : UInt8}
    (fits : (rdU32 [a, b, c, d]).toNat ≤ SEQ_MAX_PAYLOAD)
    (length : payload.length = (rdU32 [a, b, c, d]).toNat)
    : ∃ e : Envelope,
        e.type = type ∧ e.payload = payload
          ∧ e.bytes = [0x53, 0x51, SEQ_VERSION, type, a, b, c, d] ++ payload := by
  refine ⟨⟨type, payload, length ▸ fits⟩, rfl, rfl, ?_⟩
  simp only [Envelope.bytes, length, wrU32_rdU32]
  rfl

/-- What `readMsg` returns is the message at the start of the stream. -/
theorem readMsg_some {type : UInt8} {payload : Bytes}
    (returned : readMsg s = (some (type, payload), t))
    : ∃ e : Envelope,
        e.type = type ∧ e.payload = payload ∧ s.pending = e.bytes ++ t.pending
          ∧ ∀ turn ∈ t.turns, turn ∈ s.turns := by
  unfold readMsg at returned
  split at returned
  · cases (Prod.mk.inj returned).1
  rename_i env u header
  obtain ⟨length, stream, turns⟩ := readFull_some header (Nat.zero_le _)
  obtain ⟨m, q, v, kind, a, b, c, d, rfl⟩ := eq_of_length_eight length
  simp only [byteAt, List.getD_cons_zero, List.getD_cons_succ, List.drop_succ_cons,
    List.drop_zero] at returned
  split at returned
  · cases (Prod.mk.inj returned).1
  rename_i magic
  obtain ⟨rfl, rfl⟩ := not_or.mp magic |>.imp not_not.mp not_not.mp
  split at returned
  · cases (Prod.mk.inj returned).1
  rename_i version
  obtain rfl := not_not.mp version
  split at returned
  · cases (Prod.mk.inj returned).1
  rename_i small
  split at returned
  · rename_i empty
    obtain ⟨same, rfl⟩ := Prod.mk.inj returned
    obtain ⟨rfl, rfl⟩ := Prod.mk.inj (Option.some.inj same)
    obtain ⟨e, type, payload, bytes⟩ := envelope_of_header kind [] (by omega) empty.symm
    exact ⟨e, type, payload, stream.trans (by rw [bytes, List.append_nil]), turns⟩
  · split at returned
    · cases (Prod.mk.inj returned).1
    rename_i body w read
    obtain ⟨same, rfl⟩ := Prod.mk.inj returned
    obtain ⟨rfl, rfl⟩ := Prod.mk.inj (Option.some.inj same)
    obtain ⟨full, rest, later⟩ := readFull_some read (Nat.zero_le _)
    obtain ⟨e, type, payload, bytes⟩ := envelope_of_header kind body (by omega) full
    refine ⟨e, type, payload, ?_, fun turn member => turns turn (later turn member)⟩
    rw [List.nil_append] at stream rest
    rw [stream, rest, bytes, List.append_assoc]

/-- Where no call fails, it returns nothing only where no message starts. -/
theorem readMsg_none (whole : RecvTurn.failed ∉ s.turns) (returned : (readMsg s).1 = none)
    : ¬ StartsEnvelope s.pending := by
  rintro ⟨e, rest, stream⟩
  have small : e.payload.length < 2 ^ 32 := lt_of_le_of_lt e.fits (by decide)
  have total := congrArg List.length stream
  simp only [Envelope.bytes, wrU32, List.length_append, List.length_cons, List.length_nil] at total
  unfold readMsg at returned
  split at returned
  · rename_i u header
    have ended := readFull_none whole (congrArg Prod.fst header)
    simp only [SEQ_ENVELOPE_LEN, List.length_nil] at ended
    omega
  rename_i env u header
  obtain ⟨length, same, turns⟩ := readFull_some header (Nat.zero_le _)
  rw [List.nil_append, stream] at same
  obtain ⟨envEq, restEq⟩
      : [0x53, 0x51, SEQ_VERSION, e.type] ++ wrU32 e.payload.length = env
        ∧ e.payload ++ rest = u.pending := by
    refine List.append_inj ?_ length.symm
    rw [← same]
    simp only [Envelope.bytes, List.append_assoc]
  subst envEq
  have len : (rdU32 (wrU32 e.payload.length)).toNat = e.payload.length := by
    have read := rdU32_wrU32 small []
    rwa [List.append_nil] at read
  simp only [List.cons_append, List.nil_append, byteAt, List.getD_cons_zero, List.getD_cons_succ,
    List.drop_succ_cons, List.drop_zero, ne_eq, not_true_eq_false, or_self, if_false, len,
    not_lt.mpr e.fits] at returned
  split at returned
  · cases returned
  · split at returned
    · rename_i body
      have ended := readFull_none (fun failed => whole (turns _ failed)) (congrArg Prod.fst body)
      rw [← restEq] at ended
      simp only [List.length_nil, List.length_append] at ended
      omega
    · cases returned

theorem readMsg_shorter {type : UInt8} {payload : Bytes}
    (returned : readMsg s = (some (type, payload), t))
    : t.pending.length < s.pending.length := by
  obtain ⟨e, _, _, stream, _⟩ := readMsg_some returned
  have lengths := congrArg List.length stream
  simp only [Envelope.bytes, wrU32, List.length_append, List.length_cons, List.length_nil] at lengths
  omega

/-- `readHello`: the link type, or nothing where it returns false. -/
def readHello (s : Socket) : Option Int32 × Socket :=
  match _returned : readMsg s with
  | (none, t) => (none, t)
  | (some (type, payload), t) =>
      if type ≠ SEQ_TYPE_HELLO then readHello t
      else if payload.length < SEQ_HELLO_PREFIX then (none, t)
      else (some (rdU32 payload).toInt32, t)
termination_by s.pending.length
decreasing_by exact readMsg_shorter _returned

/-- `pumpFrames`: how many frames it enqueued, and the queue. -/
def pumpFrames (q : PacketQueue) (s : Socket) : Nat × PacketQueue :=
  match _returned : readMsg s with
  | (none, _) => (0, q)
  | (some (type, payload), t) =>
      if type ≠ SEQ_TYPE_FRAME then pumpFrames q t
      else if payload.length < SEQ_FRAME_PREFIX then (0, q)
      else
        let tsMicros := rdU64 payload
        let caplen := payload.length - SEQ_FRAME_PREFIX
        if caplen = 0 then pumpFrames q t
        else
          let data := payload.drop SEQ_FRAME_PREFIX
          let pumped := pumpFrames (q.enqueue { data, tsMs := (tsMicros / 1000).toNat }) t
          (pumped.1 + 1, pumped.2)
termination_by s.pending.length
decreasing_by all_goals exact readMsg_shorter _returned

/-- The part of `run` between connecting and closing. -/
def session (q : PacketQueue) (s : Socket) : PacketQueue :=
  match readHello s with
  | (none, _) => q
  | (some _, s) => (pumpFrames q s).2

-----------------------------------------------------------------------------------------
-- What a stream brings
-----------------------------------------------------------------------------------------

/-- The messages after the first Hello, which must have a whole header. -/
def afterHello : List Envelope → Option (List Envelope)
  | [] => none
  | e :: rest =>
      if e.type ≠ SEQ_TYPE_HELLO then afterHello rest
      else if e.payload.length < SEQ_HELLO_PREFIX then none
      else some rest

/-- A frame message that is shorter than its header. -/
def Envelope.shortFrame (e : Envelope) : Bool :=
  e.type = SEQ_TYPE_FRAME ∧ e.payload.length < SEQ_FRAME_PREFIX

/-- The frame of a message with a byte of data, and the time it carries. -/
def Envelope.frame? (e : Envelope) : Option PacketCache :=
  if e.type = SEQ_TYPE_FRAME ∧ SEQ_FRAME_PREFIX < e.payload.length then
    some
      { data := e.payload.drop SEQ_FRAME_PREFIX, tsMs := (rdU64 e.payload / 1000).toNat }
  else none

/-- The frames of messages, up to one that is too short. -/
def frames (es : List Envelope) : List PacketCache :=
  (es.takeWhile (!·.shortFrame)).filterMap Envelope.frame?

/-- The frames that a session brings. -/
def delivered (es : List Envelope) : List PacketCache := ((afterHello es).map frames).getD []

/-- A stream of messages, after which none starts, and of which no call fails. -/
structure Carries (s : Socket) (es : List Envelope) (tail : Bytes) : Prop where
  pending : s.pending = es.flatMap Envelope.bytes ++ tail
  ended : ¬ StartsEnvelope tail
  whole : RecvTurn.failed ∉ s.turns

variable {es : List Envelope} {tail : Bytes} {q : PacketQueue}

theorem Carries.readMsg_nil (carries : Carries s [] tail) : (readMsg s).1 = none := by
  rcases returned : readMsg s with ⟨_ | ⟨type, payload⟩, t⟩
  · rfl
  · obtain ⟨e, _, _, stream, _⟩ := readMsg_some returned
    have pending := carries.pending
    rw [List.flatMap_nil, List.nil_append] at pending
    exact absurd ⟨e, _, pending.symm.trans stream⟩ carries.ended

theorem Carries.readMsg_cons {e : Envelope} (carries : Carries s (e :: es) tail)
    : ∃ t, readMsg s = (some (e.type, e.payload), t) ∧ Carries t es tail := by
  have pending := carries.pending
  rw [List.flatMap_cons, List.append_assoc] at pending
  rcases returned : readMsg s with ⟨_ | ⟨type, payload⟩, t⟩
  · exact absurd ⟨e, _, pending⟩ (readMsg_none carries.whole (congrArg Prod.fst returned))
  · obtain ⟨f, rfl, rfl, stream, turns⟩ := readMsg_some returned
    obtain ⟨rfl, rest⟩ := bytes_append_inj (pending.symm.trans stream)
    exact ⟨t, rfl, rest.symm, carries.ended, fun failed => carries.whole (turns _ failed)⟩

/-- `readHello` reads up to the first Hello, by induction on the messages. -/
theorem Carries.readHello (carries : Carries s es tail)
    : (afterHello es = none ∧ (RemoteCapture.readHello s).1 = none)
      ∨ ∃ rest linkType t,
          afterHello es = some rest
            ∧ RemoteCapture.readHello s = (some linkType, t)
            ∧ Carries t rest tail := by
  induction es generalizing s with
  | nil =>
      have none := carries.readMsg_nil
      refine Or.inl ⟨rfl, ?_⟩
      unfold RemoteCapture.readHello
      split
      · rfl
      · rename_i returned
        rw [returned] at none
        cases none
  | cons e es ih =>
      obtain ⟨t, returned, later⟩ := carries.readMsg_cons
      unfold RemoteCapture.readHello
      split
      · rename_i nothing
        rw [returned] at nothing
        cases (Prod.mk.inj nothing).1
      rename_i type payload u same
      obtain ⟨head, rfl⟩ := Prod.mk.inj (returned.symm.trans same)
      obtain ⟨rfl, rfl⟩ := Prod.mk.inj (Option.some.inj head)
      simp only [afterHello]
      split
      · exact ih later
      · split
        · exact Or.inl ⟨rfl, rfl⟩
        · exact Or.inr ⟨es, _, t, rfl, rfl, later⟩

theorem enqueue_append (isOpen : q.closed = false) (pc : PacketCache)
    : (q.enqueue pc).cache = q.cache ++ [pc] ∧ (q.enqueue pc).closed = false := by
  simp [PacketQueue.enqueue, isOpen]

/-- `pumpFrames` enqueues the frames of the messages, by induction on them. -/
theorem Carries.pumpFrames (carries : Carries s es tail) (isOpen : q.closed = false)
    : (RemoteCapture.pumpFrames q s).2.cache = q.cache ++ frames es
      ∧ (RemoteCapture.pumpFrames q s).1 = (frames es).length := by
  induction es generalizing s q with
  | nil =>
      have none := carries.readMsg_nil
      unfold RemoteCapture.pumpFrames
      split
      · simp [frames]
      · rename_i returned
        rw [returned] at none
        cases none
  | cons e es ih =>
      obtain ⟨t, returned, later⟩ := carries.readMsg_cons
      unfold RemoteCapture.pumpFrames
      split
      · rename_i nothing
        rw [returned] at nothing
        cases (Prod.mk.inj nothing).1
      rename_i type payload u same
      obtain ⟨head, rfl⟩ := Prod.mk.inj (returned.symm.trans same)
      obtain ⟨rfl, rfl⟩ := Prod.mk.inj (Option.some.inj head)
      split
      · rename_i other
        obtain ⟨cache, count⟩ := ih later isOpen
        have skipped : frames (e :: es) = frames es := by
          simp [frames, Envelope.shortFrame, Envelope.frame?, other]
        rw [skipped]
        exact ⟨cache, count⟩
      rename_i isFrame
      have isFrame := not_not.mp isFrame
      split
      · rename_i short
        have stopped : frames (e :: es) = [] := by
          simp [frames, Envelope.shortFrame, isFrame, short]
        rw [stopped]
        simp
      rename_i long
      have prefixed : SEQ_FRAME_PREFIX ≤ e.payload.length := by omega
      dsimp only
      split
      · rename_i bare
        obtain ⟨cache, count⟩ := ih later isOpen
        have skipped : frames (e :: es) = frames es := by
          have none : e.frame? = none := if_neg fun frame => by omega
          simp [frames, Envelope.shortFrame, prefixed, none]
        rw [skipped]
        exact ⟨cache, count⟩
      · rename_i loaded
        have one
            : frames (e :: es)
              = { data := e.payload.drop SEQ_FRAME_PREFIX
                  tsMs := (rdU64 e.payload / 1000).toNat } :: frames es := by
          have some : e.frame? = _ := if_pos ⟨isFrame, by omega⟩
          simp [frames, Envelope.shortFrame, prefixed, some]
        obtain ⟨appended, opened⟩ := enqueue_append isOpen
          { data := e.payload.drop SEQ_FRAME_PREFIX, tsMs := (rdU64 e.payload / 1000).toNat }
        obtain ⟨cache, count⟩ := ih later opened
        rw [one]
        refine ⟨?_, ?_⟩
        · rw [cache, appended, List.append_assoc]
          rfl
        · rw [count, List.length_cons]

theorem Carries.session (carries : Carries s es tail) (isOpen : q.closed = false)
    : (RemoteCapture.session q s).cache = q.cache ++ delivered es := by
  unfold RemoteCapture.session delivered
  rcases carries.readHello with ⟨none, refused⟩ | ⟨rest, linkType, t, some, hello, later⟩
  · split
    · simp [none]
    · rename_i returned
      rw [returned] at refused
      cases refused
  · rw [hello, some]
    exact (later.pumpFrames isOpen).1

/-- Every enqueued frame is of a length the queue admits. -/
theorem admitted_of_mem_delivered {pc : PacketCache} (member : pc ∈ delivered es)
    : pc.Admitted := by
  unfold delivered at member
  cases rest : afterHello es with
  | none =>
      rw [rest] at member
      cases member
  | some later =>
      rw [rest] at member
      obtain ⟨e, _, same⟩ := List.mem_filterMap.mp member
      unfold Envelope.frame? at same
      split at same
      · rename_i frame
        obtain rfl := Option.some.inj same
        have fits := e.fits
        simp only [SEQ_MAX_PAYLOAD] at fits
        simp only [PacketCache.Admitted, List.length_drop]
        omega
      · cases same

/-- However `recv` splits a stream of messages that breaks off or goes wrong at some point, a
session enqueues the data of the frame messages after the first Hello that have any, in order and
with their times, up to where the stream breaks off or a frame is shorter than its header; and
none where the first Hello is shorter than its own.
-/
theorem session_exact (es : List Envelope) {tail : Bytes} (ended : ¬ StartsEnvelope tail)
    {turns : List RecvTurn} (whole : RecvTurn.failed ∉ turns) {q : PacketQueue}
    (isOpen : q.closed = false)
    : (session q ⟨es.flatMap Envelope.bytes ++ tail, turns⟩).cache = q.cache ++ delivered es
      ∧ ∀ pc ∈ delivered es, pc.Admitted := by
  have carries : Carries ⟨es.flatMap Envelope.bytes ++ tail, turns⟩ es tail :=
    ⟨rfl, ended, whole⟩
  exact ⟨carries.session isOpen, fun pc member => admitted_of_mem_delivered member⟩

/-- A Hello, a message of another type, and a frame of one byte. -/
def sampleMessages : List Envelope :=
  [{ type := SEQ_TYPE_HELLO, payload := [1, 0, 0, 0, 0, 0, 4, 0], fits := by decide },
    { type := 9, payload := [7, 7], fits := by decide },
    { type := SEQ_TYPE_FRAME, payload := [0xe8, 3, 0, 0, 0, 0, 0, 0, 60, 0, 0, 0, 0xab]
      fits := by decide }]

theorem not_startsEnvelope_nil : ¬ StartsEnvelope [] := by
  rintro ⟨e, rest, same⟩
  cases same

/-- They come in pieces, with an interruption. -/
theorem session_exact_pieces
    : (session .opened
          ⟨sampleMessages.flatMap Envelope.bytes ++ [], [.data 2, .interrupted, .data 0]⟩).cache
        = [] ++ [⟨[0xab], 1⟩]
      ∧ ∀ pc ∈ [(⟨[0xab], 1⟩ : PacketCache)], pc.Admitted :=
  session_exact sampleMessages not_startsEnvelope_nil (by decide) rfl

/-- The data does not begin after the eight bytes of the time. -/
theorem session_not_eight
    : ¬ (∀ (es : List Envelope) (turns : List RecvTurn), RecvTurn.failed ∉ turns →
        ∀ rest, afterHello es = some rest → (∀ e ∈ rest, 8 ≤ e.payload.length) →
          ((session .opened ⟨es.flatMap Envelope.bytes ++ [], turns⟩).cache.map
              PacketCache.data)
            = (rest.filter fun e => e.type = SEQ_TYPE_FRAME ∧ 8 < e.payload.length).map
                fun e => e.payload.drop 8) := by
  intro eight
  have carries : Carries ⟨[sampleMessages[0], sampleMessages[2]].flatMap Envelope.bytes ++ [], []⟩
      [sampleMessages[0], sampleMessages[2]] [] :=
    ⟨rfl, not_startsEnvelope_nil, by decide⟩
  have claimed := eight [sampleMessages[0], sampleMessages[2]] [] (by decide)
    [sampleMessages[2]] rfl (by decide)
  rw [carries.session rfl] at claimed
  exact absurd claimed (by decide)

end RemoteCapture
end Scry
