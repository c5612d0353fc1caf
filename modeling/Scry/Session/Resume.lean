import Mathlib.Logic.Relation
import Scry.Session.WsServer

/-! Sessions, sockets and rings over every run of the server. A session has at most one socket
and is pruned only without one; its ring buffer ends at its last number; and what a resumed
socket gets is exactly what the session emitted past the number the client had seen.
-/

namespace Scry

variable {B : Type}

namespace WsServer

-----------------------------------------------------------------------------------------
-- What a callback can do
-----------------------------------------------------------------------------------------

/-- The moves callbacks are made of. -/
inductive Move (s : WsServer B) : WsServer B → Prop
  | connected : Move s s.onNewConnection
  | handled (id : String) (slot : SessionAdapter B → SessionAdapter B × List (Envelope B))
      (emits : ∀ a : SessionAdapter B, a.Emits (slot a).1 (slot a).2)
      : Move s (s.handle id slot)
  | dropped (sock : Nat)
      : Move s { s with pending := Function.update s.pending sock false }
  | attached (sock : Nat) (id : String) (waiting : s.pending sock = true)
      (free : s.sessions id = none)
      : Move s
          ({ s with pending := Function.update s.pending sock false }.attachNewSession sock id)
  | resumed (sock : Nat) (id : String) (session : Session B) (lastSeq : Nat)
      (waiting : s.pending sock = true) (found : s.sessions id = some session)
      (detached : session.sock = none)
      : Move s
          ({ s with pending := Function.update s.pending sock false }.resumeSession id session
            sock lastSeq)
  | detached (sock : Nat) (id : String) (session : Session B)
      (mapped : s.socketToSession sock = some id) (found : s.sessions id = some session)
      : Move s
          ({ s with socketToSession := Function.update s.socketToSession sock none }.setSession
            id (some {
              adapter := { session.adapter with sink := .noop }
              liveSink := .noop
              sock := none
              pruneTimer := true
            }))
  | pruned (id : String) (session : Session B) (found : s.sessions id = some session)
      (detached : session.sock = none)
      : Move s (s.setSession id none)

/-- The sink of a session with this socket. -/
def sinkOf : Option Nat → EnvelopeSink
  | none => .noop
  | some sock => .webSocket sock

/-- What holds between callbacks: each session's ring can be resumed from and its sink is its
socket's; the two tables agree on who is attached; a socket that waits is attached to nothing
and has been sent nothing, as has one that has yet to connect.
-/
structure Coherent (s : WsServer B) : Prop where
  resumable : ∀ {id session}, s.sessions id = some session → session.adapter.Resumable
  named : ∀ {id session}, s.sessions id = some session → session.adapter.sessionId = id
  sink : ∀ {id session}, s.sessions id = some session →
    session.adapter.sink = sinkOf session.sock
  attached : ∀ {sock id}, s.socketToSession sock = some id
    ↔ ∃ session, s.sessions id = some session ∧ session.sock = some sock
  waiting : ∀ {sock}, s.pending sock = true →
    s.socketToSession sock = none ∧ s.frames sock = []
  unborn : ∀ {sock}, s.nextSocket ≤ sock →
    s.pending sock = false ∧ s.socketToSession sock = none ∧ s.frames sock = []

theorem coherent_start : (start : WsServer B).Coherent where
  resumable := by simp [start]
  named := by simp [start]
  sink := by simp [start]
  attached := by simp [start]
  waiting := by simp [start]
  unborn := by simp [start]

@[simp]
theorem deliver_sessions (s : WsServer B) (sink : EnvelopeSink) (envs : List (Envelope B))
    : (s.deliver sink envs).sessions = s.sessions := by
  cases sink <;> rfl

@[simp]
theorem deliver_pending (s : WsServer B) (sink : EnvelopeSink) (envs : List (Envelope B))
    : (s.deliver sink envs).pending = s.pending := by
  cases sink <;> rfl

@[simp]
theorem deliver_socketToSession (s : WsServer B) (sink : EnvelopeSink)
    (envs : List (Envelope B))
    : (s.deliver sink envs).socketToSession = s.socketToSession := by
  cases sink <;> rfl

@[simp]
theorem deliver_nextSocket (s : WsServer B) (sink : EnvelopeSink) (envs : List (Envelope B))
    : (s.deliver sink envs).nextSocket = s.nextSocket := by
  cases sink <;> rfl

@[simp]
theorem setSession_pending (s : WsServer B) (id : String) (set : Option (Session B))
    : (s.setSession id set).pending = s.pending := rfl

@[simp]
theorem setSession_frames (s : WsServer B) (id : String) (set : Option (Session B))
    : (s.setSession id set).frames = s.frames := rfl

@[simp]
theorem setSession_socketToSession (s : WsServer B) (id : String) (set : Option (Session B))
    : (s.setSession id set).socketToSession = s.socketToSession := rfl

@[simp]
theorem setSession_nextSocket (s : WsServer B) (id : String) (set : Option (Session B))
    : (s.setSession id set).nextSocket = s.nextSocket := rfl

/-- A sink sends on its own socket and on no other. -/
theorem deliver_frames (s : WsServer B) (attached : Option Nat) (envs : List (Envelope B))
    (sock : Nat)
    : (s.deliver (sinkOf attached) envs).frames sock
      = if attached = some sock then s.frames sock ++ envs else s.frames sock := by
  cases attached with
  | none => simp [sinkOf, deliver]
  | some other =>
      by_cases h : other = sock
      · subst h
        simp [sinkOf, deliver]
      · simp [sinkOf, deliver, h, Function.update_of_ne (Ne.symm h)]

/-- Two attached sockets of one session are one. -/
theorem Coherent.socket_unique {s : WsServer B} (h : s.Coherent) {sock other : Nat} {id : String}
    (hs : s.socketToSession sock = some id) (ho : s.socketToSession other = some id)
    : sock = other := by
  obtain ⟨session, hfound, hsock⟩ := h.attached.mp hs
  obtain ⟨session', hfound', hother⟩ := h.attached.mp ho
  rw [hfound, Option.some.injEq] at hfound'
  subst hfound'
  rw [hsock, Option.some.injEq] at hother
  exact hother

/-- A socket that waits or has yet to connect is no session's. -/
theorem Coherent.not_attached {s : WsServer B} (h : s.Coherent) {sock : Nat}
    (hnone : s.socketToSession sock = none) {id : String} {session : Session B}
    (hfound : s.sessions id = some session)
    : session.sock ≠ some sock := by
  intro hsock
  have := h.attached.mpr ⟨session, hfound, hsock⟩
  rw [hnone] at this
  cases this

-----------------------------------------------------------------------------------------
-- Each move keeps the tables coherent
-----------------------------------------------------------------------------------------

/-- A session looked up after one was set is that one or an old one. -/
theorem setSession_sessions {s : WsServer B} {id other : String} {set : Option (Session B)}
    : (s.setSession id set).sessions other = if other = id then set else s.sessions other := by
  simp [setSession, Function.update_apply]

theorem Coherent.onNewConnection {s : WsServer B} (h : s.Coherent)
    : s.onNewConnection.Coherent where
  resumable := h.resumable
  named := h.named
  sink := h.sink
  attached := h.attached
  waiting := by
    intro sock hp
    by_cases hs : sock = s.nextSocket
    · subst hs
      exact (h.unborn (Nat.le_refl _)).2
    · simp only [WsServer.onNewConnection, Function.update_of_ne hs] at hp
      exact h.waiting hp
  unborn := by
    intro sock hle
    have hlt : s.nextSocket + 1 ≤ sock := hle
    have hne : sock ≠ s.nextSocket := by omega
    have hold := h.unborn (Nat.le_of_succ_le hlt)
    exact ⟨by simp [WsServer.onNewConnection, Function.update_of_ne hne, hold.1], hold.2⟩

theorem Coherent.handle {s : WsServer B} (h : s.Coherent) (id : String)
    {slot : SessionAdapter B → SessionAdapter B × List (Envelope B)}
    (emits : ∀ a : SessionAdapter B, a.Emits (slot a).1 (slot a).2)
    : (s.handle id slot).Coherent := by
  cases hf : s.sessions id with
  | none => simpa only [WsServer.handle, hf] using h
  | some session =>
      have hslot := emits session.adapter
      have hsink : (slot session.adapter).1.sink = sinkOf session.sock := by
        rw [hslot.sink, h.sink hf]
      simp only [WsServer.handle, hf, hsink]
      refine ⟨?_, ?_, ?_, ?_, ?_, ?_⟩
      · intro other found hfound
        rw [deliver_sessions, setSession_sessions] at hfound
        split at hfound
        · cases hfound
          exact hslot.resumable (h.resumable hf)
        · exact h.resumable hfound
      · intro other found hfound
        rw [deliver_sessions, setSession_sessions] at hfound
        split at hfound
        · rename_i he
          cases hfound
          rw [he, hslot.sessionId, h.named hf]
        · exact h.named hfound
      · intro other found hfound
        rw [deliver_sessions, setSession_sessions] at hfound
        split at hfound
        · cases hfound
          exact hsink
        · exact h.sink hfound
      · intro sock other
        rw [deliver_socketToSession, deliver_sessions, setSession_sessions]
        refine h.attached.trans ?_
        split
        · rename_i he
          subst he
          simp [hf]
        · exact Iff.rfl
      · intro sock hp
        rw [deliver_pending] at hp
        obtain ⟨hnone, hframes⟩ := h.waiting hp
        rw [deliver_socketToSession, deliver_frames, if_neg (h.not_attached hnone hf)]
        exact ⟨hnone, hframes⟩
      · intro sock hle
        rw [deliver_nextSocket] at hle
        obtain ⟨hp, hnone, hframes⟩ := h.unborn hle
        rw [deliver_pending, deliver_socketToSession, deliver_frames,
          if_neg (h.not_attached hnone hf)]
        exact ⟨hp, hnone, hframes⟩

/-- A socket that stops waiting leaves everything else as it is. -/
theorem Coherent.drop {s : WsServer B} (h : s.Coherent) (sock : Nat)
    : { s with pending := Function.update s.pending sock false }.Coherent where
  resumable := h.resumable
  named := h.named
  sink := h.sink
  attached := h.attached
  waiting := by
    intro other hp
    by_cases ho : other = sock
    · subst ho
      simp at hp
    · simp only [Function.update_of_ne ho] at hp
      exact h.waiting hp
  unborn := by
    intro other hle
    have hold := h.unborn hle
    refine ⟨?_, hold.2⟩
    by_cases ho : other = sock
    · subst ho
      simp
    · simpa only [Function.update_of_ne ho] using hold.1

/-- Giving a waiting socket to a session that has none keeps the tables coherent. -/
theorem Coherent.attach {s : WsServer B} (h : s.Coherent) {sock : Nat} {id : String}
    (waits : s.pending sock = true) (unattached : ∀ old, s.sessions id = some old → old.sock = none)
    {session : Session B} (hsock : session.sock = some sock)
    (hsink : session.adapter.sink = .webSocket sock) (hname : session.adapter.sessionId = id)
    (hring : session.adapter.Resumable) (replay : List (Envelope B))
    : ({ ({ s with pending := Function.update s.pending sock false }.setSession id
          (some session)) with
        socketToSession := Function.update s.socketToSession sock (some id) }.deliver
          (sinkOf (some sock)) replay).Coherent := by
  have hborn : sock < s.nextSocket := by
    by_contra hc
    rw [(h.unborn (Nat.le_of_not_lt hc)).1] at waits
    cases waits
  obtain ⟨hnone, -⟩ := h.waiting waits
  refine ⟨?_, ?_, ?_, ?_, ?_, ?_⟩
  · intro other found hfound
    rw [deliver_sessions] at hfound
    change (s.setSession id (some session)).sessions other = some found at hfound
    rw [setSession_sessions] at hfound
    split at hfound
    · cases hfound
      exact hring
    · exact h.resumable hfound
  · intro other found hfound
    rw [deliver_sessions] at hfound
    change (s.setSession id (some session)).sessions other = some found at hfound
    rw [setSession_sessions] at hfound
    split at hfound
    · rename_i he
      cases hfound
      rw [he, hname]
    · exact h.named hfound
  · intro other found hfound
    rw [deliver_sessions] at hfound
    change (s.setSession id (some session)).sessions other = some found at hfound
    rw [setSession_sessions] at hfound
    split at hfound
    · cases hfound
      rw [hsink, hsock]
      rfl
    · exact h.sink hfound
  · intro other key
    rw [deliver_socketToSession, deliver_sessions]
    change Function.update s.socketToSession sock (some id) other = some key
      ↔ ∃ found, (s.setSession id (some session)).sessions key = some found
          ∧ found.sock = some other
    rw [setSession_sessions]
    by_cases ho : other = sock
    · subst ho
      rw [Function.update_self, Option.some.injEq]
      constructor
      · intro he
        subst he
        exact ⟨session, by simp, hsock⟩
      · intro hfound
        obtain ⟨found, hfound, hattached⟩ := hfound
        split at hfound
        · rename_i he
          exact he.symm
        · exact absurd hattached (h.not_attached hnone hfound)
    · rw [Function.update_of_ne ho]
      refine h.attached.trans ?_
      constructor
      · intro hfound
        obtain ⟨found, hfound, hattached⟩ := hfound
        have hk : key ≠ id := by
          intro he
          subst he
          rw [unattached found hfound] at hattached
          cases hattached
        exact ⟨found, by simp [hk, hfound], hattached⟩
      · intro hfound
        obtain ⟨found, hfound, hattached⟩ := hfound
        split at hfound
        · cases hfound
          rw [hsock, Option.some.injEq] at hattached
          exact absurd hattached.symm ho
        · exact ⟨found, hfound, hattached⟩
  · intro other hp
    rw [deliver_pending] at hp
    change Function.update s.pending sock false other = true at hp
    by_cases ho : other = sock
    · subst ho
      simp at hp
    · rw [Function.update_of_ne ho] at hp
      obtain ⟨hother, hframes⟩ := h.waiting hp
      rw [deliver_socketToSession, deliver_frames, if_neg (by simpa using Ne.symm ho)]
      exact ⟨by simpa [Function.update_of_ne ho] using hother, hframes⟩
  · intro other hle
    rw [deliver_nextSocket] at hle
    have ho : other ≠ sock := by
      have : s.nextSocket ≤ other := hle
      omega
    obtain ⟨hp, hother, hframes⟩ := h.unborn hle
    rw [deliver_pending, deliver_socketToSession, deliver_frames,
      if_neg (by simpa using Ne.symm ho)]
    refine ⟨?_, ?_, hframes⟩
    · change Function.update s.pending sock false other = false
      rw [Function.update_of_ne ho, hp]
    · change Function.update s.socketToSession sock (some id) other = none
      rw [Function.update_of_ne ho, hother]

@[simp]
theorem deliver_nil (s : WsServer B) (sink : EnvelopeSink) : s.deliver sink [] = s := by
  cases sink with
  | noop => rfl
  | webSocket sock => simp [deliver, Function.update_eq_self]

/-- Taking the socket of a session away keeps the tables coherent. -/
theorem Coherent.detach {s : WsServer B} (h : s.Coherent) {sock : Nat} {id : String}
    {session : Session B} (mapped : s.socketToSession sock = some id)
    (found : s.sessions id = some session)
    : ({ s with socketToSession := Function.update s.socketToSession sock none }.setSession id
        (some {
          adapter := { session.adapter with sink := .noop }
          liveSink := .noop
          sock := none
          pruneTimer := true
        })).Coherent := by
  have hring := h.resumable found
  have hname := h.named found
  refine ⟨?_, ?_, ?_, ?_, ?_, ?_⟩
  · intro other kept hkept
    rw [setSession_sessions] at hkept
    split at hkept
    · cases hkept
      exact ⟨hring.numbered, hring.latest, hring.capped, hring.kept⟩
    · exact h.resumable hkept
  · intro other kept hkept
    rw [setSession_sessions] at hkept
    split at hkept
    · rename_i he
      cases hkept
      rw [he]
      exact hname
    · exact h.named hkept
  · intro other kept hkept
    rw [setSession_sessions] at hkept
    split at hkept
    · cases hkept
      rfl
    · exact h.sink hkept
  · intro other key
    rw [setSession_sessions]
    change Function.update s.socketToSession sock none other = some key ↔ _
    constructor
    · intro hmap
      by_cases ho : other = sock
      · subst ho
        simp at hmap
      · rw [Function.update_of_ne ho] at hmap
        obtain ⟨kept, hkept, hattached⟩ := h.attached.mp hmap
        have hk : key ≠ id := by
          intro he
          subst he
          exact ho (h.socket_unique hmap mapped)
        exact ⟨kept, by simp [hk, hkept], hattached⟩
    · intro hfound
      obtain ⟨kept, hkept, hattached⟩ := hfound
      split at hkept
      · cases hkept
        cases hattached
      · rename_i hk
        have hmap := h.attached.mpr ⟨kept, hkept, hattached⟩
        have ho : other ≠ sock := by
          intro he
          subst he
          rw [mapped, Option.some.injEq] at hmap
          exact hk hmap.symm
        rw [Function.update_of_ne ho, hmap]
  · intro other hp
    obtain ⟨hnone, hframes⟩ := h.waiting hp
    refine ⟨?_, hframes⟩
    change Function.update s.socketToSession sock none other = none
    by_cases ho : other = sock
    · subst ho
      simp
    · rw [Function.update_of_ne ho, hnone]
  · intro other hle
    obtain ⟨hp, hnone, hframes⟩ := h.unborn hle
    refine ⟨hp, ?_, hframes⟩
    change Function.update s.socketToSession sock none other = none
    by_cases ho : other = sock
    · subst ho
      simp
    · rw [Function.update_of_ne ho, hnone]

/-- Pruning a session without a socket keeps the tables coherent. -/
theorem Coherent.prune {s : WsServer B} (h : s.Coherent) {id : String} {session : Session B}
    (found : s.sessions id = some session) (detached : session.sock = none)
    : (s.setSession id none).Coherent where
  resumable := by
    intro other kept hkept
    rw [setSession_sessions] at hkept
    split at hkept
    · cases hkept
    · exact h.resumable hkept
  named := by
    intro other kept hkept
    rw [setSession_sessions] at hkept
    split at hkept
    · cases hkept
    · exact h.named hkept
  sink := by
    intro other kept hkept
    rw [setSession_sessions] at hkept
    split at hkept
    · cases hkept
    · exact h.sink hkept
  attached := by
    intro other key
    rw [setSession_sessions]
    refine h.attached.trans ?_
    split
    · rename_i he
      subst he
      simp [found, detached]
    · exact Iff.rfl
  waiting := h.waiting
  unborn := h.unborn

/-- Every move keeps the tables coherent. -/
theorem Move.coherent {s t : WsServer B} (move : Move s t) (h : s.Coherent) : t.Coherent := by
  cases move with
  | connected => exact h.onNewConnection
  | handled id slot emits => exact h.handle id emits
  | dropped sock => exact h.drop sock
  | attached sock id waiting free =>
      have hunattached : ∀ old, s.sessions id = some old → old.sock = none := by simp [free]
      have hattach := @Coherent.attach B s h sock id waiting hunattached
        { adapter := .fresh (.webSocket sock) id
          liveSink := .webSocket sock
          sock := some sock
          pruneTimer := false }
        rfl rfl rfl (SessionAdapter.resumable_fresh _ _) []
      rwa [deliver_nil] at hattach
  | resumed sock id session lastSeq waiting found detached =>
      have hring := h.resumable found
      have hname := h.named found
      have hunattached : ∀ old, s.sessions id = some old → old.sock = none := by
        simp [found, detached]
      unfold resumeSession
      rw [hname]
      exact @Coherent.attach B s h sock id waiting hunattached
        { adapter := { session.adapter with sink := .webSocket sock }
          liveSink := .webSocket sock
          sock := some sock
          pruneTimer := false }
        rfl rfl hname ⟨hring.numbered, hring.latest, hring.capped, hring.kept⟩ _
  | detached sock id session mapped found => exact h.detach mapped found
  | pruned id session found detached => exact h.prune found detached

-----------------------------------------------------------------------------------------
-- Each callback is a sequence of moves
-----------------------------------------------------------------------------------------

theorem openSession_moves {s : WsServer B} {sock : Nat} (waiting : s.pending sock = true)
    (clientSessionId : String) (fresh : FreshSession B)
    : Relation.ReflTransGen Move s (s.openSession sock clientSessionId fresh) := by
  unfold openSession
  cases hid : s.freshId clientSessionId fresh.generated with
  | none => exact .refl
  | some id =>
      have hfree : s.sessions id = none := by
        simpa using List.find?_some hid
      refine ((Relation.ReflTransGen.single (Move.attached sock id waiting hfree)).tail
        (Move.handled id _ ?_)).tail (Move.handled id _ ?_)
      · intro a
        exact ⟨rfl, rfl, (List.append_nil _).symm,
          fun h => ⟨h.numbered, h.latest, h.capped, h.kept⟩⟩
      · intro a
        exact a.emits_startStreaming fresh.snapshot fresh.initial fresh.clock

theorem Coherent.moves {s : WsServer B} (h : s.Coherent) (event : WsEvent B)
    : Relation.ReflTransGen Move s (step event s) := by
  cases event with
  | newConnection => exact .single .connected
  | firstBinary sock frame fresh =>
      simp only [step, onPendingFirstBinary]
      split
      · rename_i waiting
        cases frame with
        | malformed => exact .refl
        | other => exact .refl
        | subscribe clientSessionId lastSeq =>
            dsimp only
            cases hf : s.sessions clientSessionId with
            | none => exact openSession_moves waiting clientSessionId fresh
            | some session =>
                simp only
                split
                · rename_i hc
                  exact .single (.resumed sock clientSessionId session lastSeq waiting hf hc.2)
                · exact openSession_moves waiting clientSessionId fresh
      · exact .refl
  | signal id body now =>
      exact .single (.handled id _ fun a => a.emits_sendOrBuffer body now)
  | snapshotSignal id snapshot now =>
      exact .single (.handled id _ fun a => a.emits_resendSnapshot snapshot now)
  | disconnected sock =>
      simp only [step, onSocketDisconnected]
      split
      · exact .single (.dropped sock)
      · cases hm : s.socketToSession sock with
        | none => exact .refl
        | some id =>
            obtain ⟨session, hf, -⟩ := h.attached.mp hm
            simp only [hf]
            exact .single (.detached sock id session hm hf)
  | pruneTimeout id =>
      simp only [step, pruneSession]
      cases hf : s.sessions id with
      | none => exact .refl
      | some session =>
          by_cases hd : session.sock = none
          · simp only [hd, ne_eq, not_true_eq_false, if_false]
            exact .single (.pruned id session hf hd)
          · simp only [hd, ne_eq, not_false_eq_true, if_true]
            exact .refl

/-- A property every move keeps is kept by every callback of a coherent server. -/
theorem Coherent.step_induction {I : WsServer B → Prop} {s : WsServer B} (h : s.Coherent)
    (keeps : ∀ {s t}, s.Coherent → Move s t → I s → I t) (holds : I s) (event : WsEvent B)
    : (step event s).Coherent ∧ I (step event s) := by
  have hmoves := h.moves event
  generalize step event s = next at hmoves
  induction hmoves with
  | refl => exact ⟨h, holds⟩
  | tail _ move ih => exact ⟨move.coherent ih.1, keeps ih.1 move ih.2⟩

/-- The server after any callbacks, in any order. -/
def Reachable (s : WsServer B) : Prop := Machine.Reaches step (fun _ _ => True) start s

theorem coherent_of_reaches {s t : WsServer B} (h : s.Coherent)
    (reached : Machine.Reaches step (fun _ _ => True) s t)
    : t.Coherent :=
  reached.invariant h fun _ event _ hs =>
    (hs.step_induction (I := fun _ => True) (fun _ _ _ => trivial) trivial event).1

-----------------------------------------------------------------------------------------
-- What a resumed socket gets
-----------------------------------------------------------------------------------------

/-- The stream of a socket that resumed a session past a number: what it was sent is numbered
from there without a gap, and as long as it is the session's it is all the session emitted.
-/
structure Follows (sock : Nat) (id : String) (lastSeq : Nat) (t : WsServer B) : Prop where
  settled : t.pending sock = false
  born : sock < t.nextSocket
  numbered : ∃ n, (t.frames sock).map (·.seq) = List.range' (lastSeq + 1) n
  complete : t.socketToSession sock = none
    ∨ ∃ current, t.sessions id = some current ∧ current.sock = some sock
        ∧ lastSeq ≤ current.adapter.seq
        ∧ t.frames sock = current.adapter.history.drop lastSeq

/-- What a session emitted past a number is numbered from there without a gap. -/
theorem numbered_drop {a : SessionAdapter B} (h : a.Resumable) (lastSeq : Nat)
    : ∃ n, (a.history.drop lastSeq).map (·.seq) = List.range' (lastSeq + 1) n := by
  refine ⟨a.seq - lastSeq, ?_⟩
  rw [List.map_drop, h.numbered, List.drop_range', Nat.mul_one, Nat.add_comm 1]

theorem Follows.handle {t : WsServer B} {sock : Nat} {id : String} {lastSeq : Nat}
    (h : Follows sock id lastSeq t) (coherent : t.Coherent) (other : String)
    {slot : SessionAdapter B → SessionAdapter B × List (Envelope B)}
    (emits : ∀ a : SessionAdapter B, a.Emits (slot a).1 (slot a).2)
    : Follows sock id lastSeq (t.handle other slot) := by
  cases hf : t.sessions other with
  | none => simpa only [WsServer.handle, hf] using h
  | some session =>
      have hslot := emits session.adapter
      have hsink : (slot session.adapter).1.sink = sinkOf session.sock := by
        rw [hslot.sink, coherent.sink hf]
      simp only [WsServer.handle, hf, hsink]
      refine ⟨by simpa using h.settled, by simpa using h.born, ?_, ?_⟩
      · rw [deliver_frames]
        split
        · rename_i hattached
          have hmapped := coherent.attached.mpr ⟨session, hf, hattached⟩
          rcases h.complete with hnone | ⟨current, hcurrent, hsock, hle, hframes⟩
          · rw [hnone] at hmapped
            cases hmapped
          · have hid := coherent.attached.mpr ⟨current, hcurrent, hsock⟩
            rw [hmapped, Option.some.injEq] at hid
            subst hid
            rw [hf, Option.some.injEq] at hcurrent
            subst hcurrent
            have hlength : session.adapter.history.length = session.adapter.seq := by
              simpa using congrArg List.length (coherent.resumable hf).numbered
            have hdrop := numbered_drop (hslot.resumable (coherent.resumable hf)) lastSeq
            rw [hslot.history, List.drop_append_of_le_length (by omega), ← hframes] at hdrop
            exact hdrop
        · exact h.numbered
      · rcases h.complete with hnone | ⟨current, hcurrent, hsock, hle, hframes⟩
        · exact Or.inl (by simpa using hnone)
        · right
          have hlength : current.adapter.history.length = current.adapter.seq := by
            simpa using congrArg List.length (coherent.resumable hcurrent).numbered
          rw [deliver_frames, deliver_sessions, setSession_sessions]
          by_cases he : id = other
          · subst he
            rw [hf, Option.some.injEq] at hcurrent
            subst hcurrent
            have hlater : (slot session.adapter).1.history.length
                = (slot session.adapter).1.seq := by
              simpa using congrArg List.length
                (hslot.resumable (coherent.resumable hf)).numbered
            have hgrow := congrArg List.length hslot.history
            rw [List.length_append] at hgrow
            refine ⟨_, if_pos rfl, hsock, by simp only; omega, ?_⟩
            rw [if_pos hsock, setSession_frames, hslot.history,
              List.drop_append_of_le_length (by omega), hframes]
          · have hother : session.sock ≠ some sock := by
              intro hattached
              have hmapped := coherent.attached.mpr ⟨session, hf, hattached⟩
              have hid := coherent.attached.mpr ⟨current, hcurrent, hsock⟩
              rw [hmapped, Option.some.injEq] at hid
              exact he hid.symm
            exact ⟨current, by rw [if_neg he, hcurrent], hsock, hle,
              by rw [if_neg hother, setSession_frames, hframes]⟩

/-- A session given another socket leaves this one's stream as it is. -/
theorem Follows.attach {t : WsServer B} {sock : Nat} {id : String} {lastSeq : Nat}
    (h : Follows sock id lastSeq t) {other : Nat} {key : String}
    (waits : t.pending other = true) (unattached : ∀ old, t.sessions key = some old → old.sock = none)
    (session : Session B) (replay : List (Envelope B))
    : Follows sock id lastSeq
        ({ ({ t with pending := Function.update t.pending other false }.setSession key
            (some session)) with
          socketToSession := Function.update t.socketToSession other (some key) }.deliver
            (sinkOf (some other)) replay) := by
  have hne : other ≠ sock := by
    intro he
    subst he
    rw [h.settled] at waits
    cases waits
  have hframes : ({ ({ t with pending := Function.update t.pending other false }.setSession key
        (some session)) with
      socketToSession := Function.update t.socketToSession other (some key) }.deliver
        (sinkOf (some other)) replay).frames sock = t.frames sock := by
    rw [deliver_frames, if_neg (by simpa using hne)]
    rfl
  refine ⟨?_, by simpa using h.born, by rw [hframes]; exact h.numbered, ?_⟩
  · rw [deliver_pending]
    change Function.update t.pending other false sock = false
    rw [Function.update_of_ne (Ne.symm hne), h.settled]
  · rcases h.complete with hnone | ⟨current, hcurrent, hsock, hle, hsent⟩
    · left
      rw [deliver_socketToSession]
      change Function.update t.socketToSession other (some key) sock = none
      rw [Function.update_of_ne (Ne.symm hne), hnone]
    · right
      have hid : id ≠ key := by
        intro he
        subst he
        rw [unattached current hcurrent] at hsock
        cases hsock
      refine ⟨current, ?_, hsock, hle, by rw [hframes, hsent]⟩
      rw [deliver_sessions]
      change (t.setSession key (some session)).sessions id = some current
      rw [setSession_sessions, if_neg hid, hcurrent]

theorem Follows.move {s t : WsServer B} {sock : Nat} {id : String} {lastSeq : Nat}
    (coherent : s.Coherent) (move : Move s t) (h : Follows sock id lastSeq s)
    : Follows sock id lastSeq t := by
  cases move with
  | connected =>
      have hne : sock ≠ s.nextSocket := Nat.ne_of_lt h.born
      exact ⟨by simpa [onNewConnection, Function.update_of_ne hne] using h.settled,
        Nat.lt_succ_of_lt h.born, h.numbered, h.complete⟩
  | handled other slot emits => exact h.handle coherent other emits
  | dropped other =>
      refine ⟨?_, h.born, h.numbered, h.complete⟩
      by_cases he : sock = other
      · subst he
        simp only [Function.update_self]
      · simpa only [Function.update_of_ne he] using h.settled
  | attached other key waiting free =>
      have hunattached : ∀ old, s.sessions key = some old → old.sock = none := by simp [free]
      have hattach := h.attach waiting hunattached
        { adapter := .fresh (.webSocket other) key
          liveSink := .webSocket other
          sock := some other
          pruneTimer := false } []
      rwa [deliver_nil] at hattach
  | resumed other key session past waiting found detached =>
      unfold resumeSession
      rw [coherent.named found]
      have hunattached : ∀ old, s.sessions key = some old → old.sock = none := by
        simp [found, detached]
      exact h.attach waiting hunattached _ _
  | detached other key session mapped found =>
      refine ⟨h.settled, h.born, h.numbered, ?_⟩
      rcases h.complete with hnone | ⟨current, hcurrent, hsock, hle, hsent⟩
      · left
        change Function.update s.socketToSession other none sock = none
        by_cases he : sock = other
        · subst he
          simp
        · rw [Function.update_of_ne he, hnone]
      · by_cases he : id = key
        · subst he
          left
          have hmapped := coherent.attached.mpr ⟨current, hcurrent, hsock⟩
          have hsame := coherent.socket_unique mapped hmapped
          subst hsame
          simp [setSession]
        · right
          exact ⟨current, by rw [setSession_sessions, if_neg he, hcurrent], hsock, hle, hsent⟩
  | pruned key session found detached =>
      refine ⟨h.settled, h.born, h.numbered, ?_⟩
      rcases h.complete with hnone | ⟨current, hcurrent, hsock, hle, hsent⟩
      · exact Or.inl hnone
      · right
        have he : id ≠ key := by
          intro he
          subst he
          rw [found, Option.some.injEq] at hcurrent
          subst hcurrent
          rw [detached] at hsock
          cases hsock
        exact ⟨current, by rw [setSession_sessions, if_neg he, hcurrent], hsock, hle, hsent⟩

/-- A resume whose number the ring buffer reaches down to starts such a stream. -/
theorem follows_resume {s : WsServer B} (coherent : s.Coherent) {sock : Nat} {id : String}
    {session : Session B} {lastSeq : Nat} (waiting : s.pending sock = true) (named : id ≠ "")
    (found : s.sessions id = some session) (detached : session.sock = none)
    (seen : lastSeq ≤ session.adapter.seq)
    (reaches : ∀ front ∈ session.adapter.ringBuffer.head?, front.seq ≤ lastSeq + 1)
    (fresh : FreshSession B)
    : Follows sock id lastSeq (step (.firstBinary sock (.subscribe id lastSeq) fresh) s) := by
  have hring := coherent.resumable found
  have hborn : sock < s.nextSocket := by
    by_contra hc
    rw [(coherent.unborn (Nat.le_of_not_lt hc)).1] at waiting
    cases waiting
  have hstep : step (.firstBinary sock (.subscribe id lastSeq) fresh) s
      = { s with pending := Function.update s.pending sock false }.resumeSession id session sock
          lastSeq := by
    simp [step, onPendingFirstBinary, waiting, found, detached, named]
  have hreplay : ({ session.adapter with sink := .webSocket sock }
      : SessionAdapter B).replaySince lastSeq = session.adapter.history.drop lastSeq :=
    hring.replaySince_eq reaches
  have hframes : (step (.firstBinary sock (.subscribe id lastSeq) fresh) s).frames sock
      = session.adapter.history.drop lastSeq := by
    rw [hstep, resumeSession, hreplay]
    simp [deliver, setSession, (coherent.waiting waiting).2]
  let resumed : Session B :=
    { adapter := { session.adapter with sink := .webSocket sock }
      liveSink := .webSocket sock
      sock := some sock
      pruneTimer := false }
  refine ⟨?_, ?_, ?_, Or.inr ⟨resumed, ?_, rfl, seen, hframes⟩⟩
  · rw [hstep]
    simp [resumeSession, setSession]
  · rw [hstep]
    simpa [resumeSession, setSession] using hborn
  · rw [hframes]
    exact numbered_drop hring lastSeq
  · rw [hstep, resumeSession, deliver_sessions]
    exact setSession_sessions.trans (if_pos rfl)

-----------------------------------------------------------------------------------------
-- Pruning
-----------------------------------------------------------------------------------------

/-- Setting a session keeps every session. -/
theorem setSession_isSome {s : WsServer B} {id other : String} (session : Session B)
    (h : (s.sessions id).isSome)
    : ((s.setSession other (some session)).sessions id).isSome := by
  rw [setSession_sessions]
  split
  · rfl
  · exact h

theorem handle_isSome {s : WsServer B} {id : String} (other : String)
    (slot : SessionAdapter B → SessionAdapter B × List (Envelope B))
    (h : (s.sessions id).isSome)
    : ((s.handle other slot).sessions id).isSome := by
  unfold handle
  split
  · exact h
  · rw [deliver_sessions]
    exact setSession_isSome _ h

theorem openSession_isSome {s : WsServer B} {id : String} (sock : Nat)
    (clientSessionId : String) (fresh : FreshSession B) (h : (s.sessions id).isSome)
    : ((s.openSession sock clientSessionId fresh).sessions id).isSome := by
  unfold openSession
  split
  · exact h
  · apply handle_isSome
    apply handle_isSome
    exact setSession_isSome _ h

/-- Whatever happens, a session goes away only while it has no socket. -/
theorem pruned_detached {s : WsServer B} {event : WsEvent B} {id : String} {session : Session B}
    (found : s.sessions id = some session) (gone : (step event s).sessions id = none)
    : session.sock = none := by
  have hsome : (s.sessions id).isSome := by simp [found]
  have hkept : ∀ t : WsServer B, (t.sessions id).isSome → t.sessions id = none → False := by
    intro t hs hn
    simp [hn] at hs
  cases event with
  | newConnection => exact (hkept s hsome gone).elim
  | firstBinary sock frame fresh =>
      refine (hkept _ ?_ gone).elim
      simp only [step, onPendingFirstBinary]
      split
      · cases frame with
        | malformed => exact hsome
        | other => exact hsome
        | subscribe clientSessionId lastSeq =>
            dsimp only
            split
            · split
              · rw [resumeSession, deliver_sessions]
                exact setSession_isSome _ hsome
              · exact openSession_isSome sock clientSessionId fresh hsome
            · exact openSession_isSome sock clientSessionId fresh hsome
      · exact hsome
  | signal other body now => exact (hkept _ (handle_isSome other _ hsome) gone).elim
  | snapshotSignal other snapshot now =>
      exact (hkept _ (handle_isSome other _ hsome) gone).elim
  | disconnected sock =>
      refine (hkept _ ?_ gone).elim
      simp only [step, onSocketDisconnected]
      split
      · exact hsome
      · split
        · exact hsome
        · split
          · exact hsome
          · exact setSession_isSome _ hsome
  | pruneTimeout other =>
      simp only [step, pruneSession] at gone
      split at gone
      · exact (hkept s hsome gone).elim
      · rename_i pruned hpruned
        split at gone
        · exact (hkept s hsome gone).elim
        · rename_i hd
          rw [setSession_sessions] at gone
          split at gone
          · rename_i he
            subst he
            rw [found, Option.some.injEq] at hpruned
            subst hpruned
            simpa using hd
          · exact (hkept s hsome gone).elim

-----------------------------------------------------------------------------------------
-- Resuming loses and repeats nothing
-----------------------------------------------------------------------------------------

/-- In every state of every run, each session's ring buffer holds a contiguous range of
numbers that ends at the last one; no two sockets are one session's; a session goes away only
while it has no socket; and from a resume on whose number the ring buffer reaches down to, the
socket gets what the session emits past it, once each and in order, until it disconnects.
-/
theorem resume_exact {s : WsServer B} (reached : s.Reachable)
    : (∀ id session, s.sessions id = some session →
        session.adapter.ringBuffer.length ≤ kMaxEntries
          ∧ session.adapter.ringBuffer.length ≤ session.adapter.seq
          ∧ session.adapter.ringBuffer.map (·.seq)
              = List.range' (session.adapter.seq - session.adapter.ringBuffer.length + 1)
                  session.adapter.ringBuffer.length)
      ∧ (∀ sock other id, s.socketToSession sock = some id →
          s.socketToSession other = some id → sock = other)
      ∧ (∀ event id session, s.sessions id = some session →
          (step event s).sessions id = none → session.sock = none)
      ∧ ∀ sock id session lastSeq fresh, s.pending sock = true → id ≠ "" →
          s.sessions id = some session → session.sock = none →
          lastSeq ≤ session.adapter.seq →
          (∀ front ∈ session.adapter.ringBuffer.head?, front.seq ≤ lastSeq + 1) →
            ∀ t, Machine.Reaches step (fun _ _ => True)
                (step (.firstBinary sock (.subscribe id lastSeq) fresh) s) t →
              (∃ n, (t.frames sock).map (·.seq) = List.range' (lastSeq + 1) n)
              ∧ (t.socketToSession sock = none
                  ∨ ∃ current, t.sessions id = some current ∧ current.sock = some sock
                      ∧ current.adapter.history.map (·.seq)
                          = List.range' 1 current.adapter.seq
                      ∧ t.frames sock = current.adapter.history.drop lastSeq) := by
  have coherent := coherent_of_reaches coherent_start reached
  refine ⟨?_, ?_, ?_, ?_⟩
  · intro id session found
    have hring := coherent.resumable found
    obtain ⟨hle, -, hnumbers⟩ := hring.ring_numbered
    exact ⟨hring.capped, hle, hnumbers⟩
  · intro sock other id hs ho
    exact coherent.socket_unique hs ho
  · intro event id session found gone
    exact pruned_detached found gone
  · intro sock id session lastSeq fresh waiting named found detached seen reaches t later
    have hstart := follows_resume coherent waiting named found detached seen reaches fresh
    have hcoherent := (coherent.step_induction (I := fun _ => True) (fun _ _ _ => trivial)
      trivial (.firstBinary sock (.subscribe id lastSeq) fresh)).1
    have hlater : t.Coherent ∧ Follows sock id lastSeq t :=
      later.invariant (I := fun t => t.Coherent ∧ Follows sock id lastSeq t)
        ⟨hcoherent, hstart⟩ fun _ event _ h =>
          h.1.step_induction (fun hc move hf => hf.move hc move) h.2 event
    obtain ⟨hcoherent', hfollows⟩ := hlater
    refine ⟨hfollows.numbered, ?_⟩
    rcases hfollows.complete with hnone | ⟨current, hcurrent, hsock, -, hframes⟩
    · exact Or.inl hnone
    · exact Or.inr
        ⟨current, hcurrent, hsock, (hcoherent'.resumable hcurrent).numbered, hframes⟩

/-- What the fresh session of the run below brings. -/
def sampleFresh : FreshSession Nat :=
  { generated := ["b", "c"], early := [], snapshot := 10, initial := [11], clock := fun _ => 5 }

/-- A client subscribes, loses its socket while the session emits one more envelope, and
connects again.
-/
def sampleRun : List (WsEvent Nat) :=
  [.newConnection, .firstBinary 0 (.subscribe "a" 0) sampleFresh, .disconnected 0,
    .signal "a" 12 6, .newConnection]

/-- The session as the run leaves it. -/
def sampleSession : Session Nat :=
  { adapter :=
      { sink := .noop
        sessionId := "a"
        subscribed := true
        liveTailing := true
        seq := 3
        buffered := []
        ringBuffer := [⟨1, 5, 10⟩, ⟨2, 5, 11⟩, ⟨3, 6, 12⟩]
        history := [⟨1, 5, 10⟩, ⟨2, 5, 11⟩, ⟨3, 6, 12⟩] }
    liveSink := .noop
    sock := none
    pruneTimer := true }

/-- Resumed past the first envelope, the second socket gets the second and the third. -/
theorem resume_exact_sample
    : ∃ n, ((step (.firstBinary 1 (.subscribe "a" 1) sampleFresh)
          (Machine.exec step start sampleRun)).frames 1).map (·.seq) = List.range' 2 n := by
  have reached : (Machine.exec step start sampleRun).Reachable :=
    Machine.reaches_exec (by simp [Machine.Permits, sampleRun])
  have found : (Machine.exec step start sampleRun).sessions "a" = some sampleSession := by
    decide
  have resumed := (resume_exact reached).2.2.2 1 "a" sampleSession 1 sampleFresh
    (by decide) (by decide) found (by decide) (by decide) (by decide) _ .start
  exact resumed.1

end WsServer

end Scry
