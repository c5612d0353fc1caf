import Scry.Session.Resume

/-! A client over all the sockets it comes to have. When it connects again it names its session and
the last number it holds, and it sees by the numbers whether the ring buffer still reached down to
that. However often it loses its socket, and whatever it had not read by then, it holds the whole
stream of its session once it has read what there is.
-/

namespace Scry

variable {B : Type}

/-- A client: the session it asks for and what it holds of it, its socket, the session that a
snapshot on this socket names, whether that was opened anew under the client's id, and how many of
the socket's envelopes were read.
-/
structure Viewer (B : Type) where
  id : String
  held : List (Envelope B)
  sock : Option Nat
  offered : String
  renewed : Bool
  taken : Nat

namespace Viewer

/-- A client that holds nothing. -/
def start (id : String) : Viewer B :=
  { id, held := [], sock := none, offered := id, renewed := false, taken := 0 }

/-- The last number it holds. -/
def lastSeq (v : Viewer B) : Nat := (v.held.getLast?.map (·.seq)).getD 0

/-- An envelope that follows is kept. The first of a session starts the client over. At a gap it
gives up the session, and its socket.
-/
def receive (v : Viewer B) (env : Envelope B) : Viewer B :=
  if env.seq = v.lastSeq + 1 then
    { v with id := v.offered, held := v.held ++ [env], taken := v.taken + 1 }
  else if env.seq = 1 then { v with id := v.offered, held := [env], taken := v.taken + 1 }
  else .start ""

end Viewer

/-- A server and one of its clients. -/
structure Viewed (B : Type) where
  server : WsServer B
  viewer : Viewer B

/-- A callback of the server that is not the client's doing, or what the client does: it
connects, sends its `Subscribe`, reads one envelope, or finds that its socket is gone. The server
may find this earlier or later.
-/
inductive ViewedEvent (B : Type)
  | server (event : WsEvent B)
  | connect
  | subscribe (fresh : FreshSession B)
  | read
  | lose

namespace Viewed

/-- One event. -/
def step (event : ViewedEvent B) (w : Viewed B) : Viewed B :=
  match event with
  | .server event => { w with server := WsServer.step event w.server }
  | .connect =>
      if w.viewer.sock = none then
        { server := w.server.onNewConnection
          viewer := { w.viewer with
            sock := some w.server.nextSocket
            offered := w.viewer.id
            renewed := false
            taken := 0 } }
      else w
  | .subscribe fresh =>
      match w.viewer.sock with
      | none => w
      | some sock =>
          if w.server.pending sock then
            let server := WsServer.step
              (.firstBinary sock (.subscribe w.viewer.id w.viewer.lastSeq) fresh) w.server
            { server
              viewer := { w.viewer with
                offered := (server.socketToSession sock).getD w.viewer.id
                renewed := (server.socketToSession sock).isSome
                  && (w.server.sessions w.viewer.id).isNone } }
          else w
  | .read =>
      match w.viewer.sock with
      | none => w
      | some sock =>
          match (w.server.frames sock)[w.viewer.taken]? with
          | none => w
          | some env => { w with viewer := w.viewer.receive env }
  | .lose =>
      { w with viewer := { w.viewer with
          sock := none, offered := w.viewer.id, renewed := false, taken := 0 } }

/-- The server before the first connection. -/
def start (id : String) : Viewed B := { server := .start, viewer := .start id }

/-- The ids that a first frame can open or resume a session under. -/
def namedBy (fresh : FreshSession B) : ClientFrame → List String
  | .subscribe id _ => if id = "" then fresh.generated else id :: fresh.generated
  | _ => []

/-- Nobody else sends on the client's socket or names its sessions. And when its session was
opened anew under the old id, the client comes to read the new snapshot before it loses its
socket: otherwise it would go on to name a number of the old session.
-/
def Permitted (w : Viewed B) : ViewedEvent B → Prop
  | .server (.firstBinary sock frame fresh) =>
      w.viewer.sock ≠ some sock
        ∧ ∀ id ∈ namedBy fresh frame, id ≠ w.viewer.id ∧ id ≠ w.viewer.offered
  | .lose => w.viewer.renewed = true → w.viewer.taken = 0 → w.viewer.held = []
  | _ => True

end Viewed

-----------------------------------------------------------------------------------------
-- What the client holds, and what came on its socket
-----------------------------------------------------------------------------------------

namespace Viewer

/-- What the client holds is a first part of what its session emitted, while there is one. -/
def Knows (v : Viewer B) (s : WsServer B) : Prop :=
  ∀ session, s.sessions v.id = some session → v.held <+: session.adapter.history

/-- What came on the client's socket is what the session of that socket emitted past a number.
Either the client has read on from what it holds, or it has yet to read, and the first envelope
will tell it of a new session or of a gap.
-/
structure Line (v : Viewer B) (sock past : Nat) (s : WsServer B) : Prop where
  numbered : (s.frames sock).map (·.seq) = List.range' (past + 1) (s.frames sock).length
  taken : v.taken ≤ (s.frames sock).length
  whole : ∀ session, s.sessions v.offered = some session →
    past ≤ session.adapter.history.length
      ∧ s.frames sock <+: session.adapter.history.drop past
      ∧ (session.sock = some sock → s.frames sock = session.adapter.history.drop past)
  mapped : ∀ id, s.socketToSession sock = some id → id = v.offered
  mode : (v.offered = v.id ∧ past + v.taken = v.held.length ∧ v.Knows s)
    ∨ (v.taken = 0 ∧ s.frames sock ≠ [] ∧ (past = 0 ∨ v.held.length < past)
        ∧ (v.Knows s ∨ v.renewed = true))

/-- What holds between events: without a socket the client knows its session, a socket that waits
is not read from, and any other is a line.
-/
structure Tracks (v : Viewer B) (s : WsServer B) : Prop where
  numbered : v.held.map (·.seq) = List.range' 1 v.held.length
  idle : v.sock = none → v.Knows s
  born : ∀ sock, v.sock = some sock → sock < s.nextSocket
  waits : ∀ sock, v.sock = some sock → s.pending sock = true →
    v.taken = 0 ∧ v.offered = v.id ∧ v.Knows s
  line : ∀ sock, v.sock = some sock → s.pending sock = false → ∃ past, v.Line sock past s

/-- The last number is the number of envelopes. -/
theorem lastSeq_eq {v : Viewer B} (numbered : v.held.map (·.seq) = List.range' 1 v.held.length)
    : v.lastSeq = v.held.length := by
  rcases List.eq_nil_or_concat v.held with none | ⟨init, last, some⟩
  · simp [lastSeq, none]
  · rw [List.concat_eq_append] at some
    have numbers := congrArg List.getLast? numbered
    rw [some, List.map_append, List.map_singleton, List.getLast?_concat, List.length_append,
      List.length_singleton, List.range'_concat, List.getLast?_concat, Option.some.injEq]
      at numbers
    simp [lastSeq, some, numbers]
    omega

-----------------------------------------------------------------------------------------
-- What others can do
-----------------------------------------------------------------------------------------

/-- A session comes from the one before, with what was emitted at the end. -/
def Grown (id : String) (s t : WsServer B) : Prop :=
  ∀ later, t.sessions id = some later →
    ∃ session, s.sessions id = some session
        ∧ session.adapter.history <+: later.adapter.history

/-- Nothing comes on a socket, and its session emits nothing that it ought to have sent there. -/
structure Quiet (sock : Nat) (id : String) (s t : WsServer B) : Prop where
  frames : t.frames sock = s.frames sock
  mapped : ∀ other, t.socketToSession sock = some other → s.socketToSession sock = some other
  session : ∀ later, t.sessions id = some later →
    ∃ session, s.sessions id = some session
        ∧ session.adapter.history <+: later.adapter.history
        ∧ (later.sock = some sock →
            session.sock = some sock ∧ later.adapter.history = session.adapter.history)

/-- The session of a socket emits, and the socket gets it. -/
structure Sent (sock : Nat) (id : String) (s t : WsServer B) : Prop where
  mapped : t.socketToSession = s.socketToSession
  session : ∃ session later sent,
    s.sessions id = some session ∧ t.sessions id = some later
      ∧ session.sock = some sock
      ∧ later.adapter.history = session.adapter.history ++ sent
      ∧ t.frames sock = s.frames sock ++ sent
      ∧ later.adapter.Resumable

/-- What a callback that is not the client's doing can do. -/
structure Apart (v : Viewer B) (s t : WsServer B) : Prop where
  born : s.nextSocket ≤ t.nextSocket
  grown : Grown v.id s t
  pending : ∀ sock, v.sock = some sock → t.pending sock = s.pending sock
  line : ∀ sock, v.sock = some sock → Quiet sock v.offered s t ∨ Sent sock v.offered s t

theorem Knows.grow {v : Viewer B} {s t : WsServer B} (knows : v.Knows s) (grown : Grown v.id s t)
    : v.Knows t := by
  intro later found
  obtain ⟨session, before, grows⟩ := grown later found
  exact (knows session before).trans grows

theorem Line.quiet {v : Viewer B} {sock past : Nat} {s t : WsServer B} (line : v.Line sock past s)
    (quiet : Quiet sock v.offered s t) (grown : Grown v.id s t)
    : v.Line sock past t where
  numbered := by rw [quiet.frames, line.numbered]
  taken := quiet.frames ▸ line.taken
  whole := by
    intro later found
    obtain ⟨session, before, grows, kept⟩ := quiet.session later found
    obtain ⟨reaches, first, all⟩ := line.whole session before
    rw [quiet.frames]
    refine ⟨reaches.trans grows.length_le, first.trans (grows.drop past), fun attached => ?_⟩
    obtain ⟨old, same⟩ := kept attached
    rw [same, all old]
  mapped := fun id there => line.mapped id (quiet.mapped id there)
  mode := by
    rw [quiet.frames]
    rcases line.mode with ⟨own, read, knows⟩ | ⟨unread, some, ahead, knows⟩
    · exact .inl ⟨own, read, knows.grow grown⟩
    · exact .inr ⟨unread, some, ahead, knows.imp_left (·.grow grown)⟩

theorem Line.sent {v : Viewer B} {sock past : Nat} {s t : WsServer B} (line : v.Line sock past s)
    (sent : Sent sock v.offered s t) (grown : Grown v.id s t)
    : v.Line sock past t := by
  obtain ⟨session, later, more, before, after, attached, grows, came, resumable⟩ := sent.session
  obtain ⟨reaches, -, all⟩ := line.whole session before
  have whole : t.frames sock = later.adapter.history.drop past := by
    rw [came, all attached, grows, List.drop_append_of_le_length reaches]
  refine ⟨?_, ?_, ?_, ?_, ?_⟩
  · obtain ⟨n, numbers⟩ := WsServer.numbered_drop resumable past
    rw [← whole] at numbers
    have length : (t.frames sock).length = n := by simpa using congrArg List.length numbers
    rw [numbers, length]
  · rw [came, List.length_append]
    exact line.taken.trans (Nat.le_add_right _ _)
  · intro found there
    rw [after, Option.some.injEq] at there
    subst there
    refine ⟨?_, whole ▸ List.prefix_refl _, fun _ => whole⟩
    rw [grows, List.length_append]
    exact reaches.trans (Nat.le_add_right _ _)
  · rw [sent.mapped]
    exact line.mapped
  · rcases line.mode with ⟨own, read, knows⟩ | ⟨unread, some, ahead, knows⟩
    · exact .inl ⟨own, read, knows.grow grown⟩
    · refine .inr ⟨unread, ?_, ahead, knows.imp_left (·.grow grown)⟩
      rw [came]
      exact List.append_ne_nil_of_left_ne_nil some more

/-- What others do leaves the client on its line. -/
theorem Tracks.apart {v : Viewer B} {s t : WsServer B} (tracks : v.Tracks s) (apart : v.Apart s t)
    : v.Tracks t where
  numbered := tracks.numbered
  idle := fun none => (tracks.idle none).grow apart.grown
  born := fun sock there => Nat.lt_of_lt_of_le (tracks.born sock there) apart.born
  waits := by
    intro sock there waiting
    rw [apart.pending sock there] at waiting
    obtain ⟨unread, own, knows⟩ := tracks.waits sock there waiting
    exact ⟨unread, own, knows.grow apart.grown⟩
  line := by
    intro sock there settled
    rw [apart.pending sock there] at settled
    obtain ⟨past, line⟩ := tracks.line sock there settled
    rcases apart.line sock there with quiet | sent
    · exact ⟨past, line.quiet quiet apart.grown⟩
    · exact ⟨past, line.sent sent apart.grown⟩

-----------------------------------------------------------------------------------------
-- Each callback that is not the client's doing
-----------------------------------------------------------------------------------------

theorem Quiet.of_session {sock : Nat} {id : String} {s t : WsServer B}
    (frames : t.frames sock = s.frames sock)
    (mapped : ∀ other, t.socketToSession sock = some other → s.socketToSession sock = some other)
    (same : t.sessions id = s.sessions id)
    : Quiet sock id s t where
  frames := frames
  mapped := mapped
  session := fun later found =>
    ⟨later, same ▸ found, List.prefix_refl _, fun attached => ⟨attached, rfl⟩⟩

theorem grown_of_session {id : String} {s t : WsServer B} (same : t.sessions id = s.sessions id)
    : Grown id s t :=
  fun later found => ⟨later, same ▸ found, List.prefix_refl _⟩

/-- A session that the client's socket is attached to is the one of its line. -/
theorem Tracks.mapped {v : Viewer B} {s : WsServer B} (tracks : v.Tracks s) (coherent : s.Coherent)
    {sock : Nat} (there : v.sock = some sock) {id : String}
    (attached : s.socketToSession sock = some id)
    : id = v.offered := by
  cases waiting : s.pending sock with
  | true =>
      rw [(coherent.waiting waiting).1] at attached
      cases attached
  | false =>
      obtain ⟨past, line⟩ := tracks.line sock there waiting
      exact line.mapped id attached

theorem Tracks.onNewConnection {v : Viewer B} {s : WsServer B} (tracks : v.Tracks s)
    : v.Tracks s.onNewConnection := by
  refine tracks.apart ⟨Nat.le_succ _, grown_of_session rfl, fun sock there => ?_, fun sock _ =>
    .inl (.of_session rfl (fun _ => (·)) rfl)⟩
  have other : sock ≠ s.nextSocket := Nat.ne_of_lt (tracks.born sock there)
  simp [WsServer.onNewConnection, Function.update_of_ne other]

/-- Whatever a session emits, it reaches the client exactly where its socket is the session's. -/
theorem Tracks.handle {v : Viewer B} {s : WsServer B} (tracks : v.Tracks s) (coherent : s.Coherent)
    (id : String) (slot : SessionAdapter B → SessionAdapter B × List (Envelope B))
    (emits : ∀ a : SessionAdapter B, a.Emits (slot a).1 (slot a).2)
    : v.Tracks (s.handle id slot) := by
  cases found : s.sessions id with
  | none => simpa only [WsServer.handle, found] using tracks
  | some session =>
      have slotted := emits session.adapter
      have sink : (slot session.adapter).1.sink = WsServer.sinkOf session.sock := by
        rw [slotted.sink, coherent.sink found]
      simp only [WsServer.handle, found, sink]
      refine tracks.apart ⟨by simp, ?_, by simp, fun sock there => ?_⟩
      · intro later now
        rw [WsServer.deliver_sessions, WsServer.setSession_sessions] at now
        split at now
        · rename_i own
          cases now
          exact ⟨session, own ▸ found, sent_prefix slotted⟩
        · exact ⟨later, now, List.prefix_refl _⟩
      · by_cases attached : session.sock = some sock
        · right
          have own : id = v.offered :=
            tracks.mapped coherent there (coherent.attached.mpr ⟨session, found, attached⟩)
          refine ⟨by simp, session, { session with adapter := (slot session.adapter).1 },
            (slot session.adapter).2, own ▸ found, ?_, attached, ?_, ?_, ?_⟩
          · rw [WsServer.deliver_sessions, WsServer.setSession_sessions, if_pos own.symm]
          · exact slotted.history
          · rw [WsServer.deliver_frames, if_pos attached, WsServer.setSession_frames]
          · exact slotted.resumable (coherent.resumable found)
        · left
          refine ⟨?_, by simp, ?_⟩
          · rw [WsServer.deliver_frames, if_neg attached, WsServer.setSession_frames]
          · intro later now
            rw [WsServer.deliver_sessions, WsServer.setSession_sessions] at now
            split at now
            · rename_i own
              cases now
              exact ⟨session, own ▸ found, sent_prefix slotted, fun on => absurd on attached⟩
            · exact ⟨later, now, List.prefix_refl _, fun on => ⟨on, rfl⟩⟩
where
  sent_prefix {a b : SessionAdapter B} {sent : List (Envelope B)} (slotted : a.Emits b sent)
      : a.history <+: b.history :=
    ⟨sent, slotted.history.symm⟩

/-- A session that the client knows nothing of is given another socket. -/
theorem Tracks.attach {v : Viewer B} {s : WsServer B} (tracks : v.Tracks s) {sock : Nat}
    {id : String} (other : v.sock ≠ some sock) (apart : id ≠ v.id ∧ id ≠ v.offered)
    (session : Session B) (replay : List (Envelope B))
    : v.Tracks
        ({ ({ s with pending := Function.update s.pending sock false }.setSession id
            (some session)) with
          socketToSession := Function.update s.socketToSession sock (some id) }.deliver
            (WsServer.sinkOf (some sock)) replay) := by
  have kept : ∀ key, key ≠ id →
      ({ ({ s with pending := Function.update s.pending sock false }.setSession id
          (some session)) with
        socketToSession := Function.update s.socketToSession sock (some id) }.deliver
          (WsServer.sinkOf (some sock)) replay).sessions key = s.sessions key := by
    intro key ne
    rw [WsServer.deliver_sessions]
    exact WsServer.setSession_sessions.trans (if_neg ne)
  refine tracks.apart ⟨by simp, grown_of_session (kept _ apart.1.symm), fun mine there => ?_,
    fun mine there => .inl (.of_session ?_ ?_ (kept _ apart.2.symm))⟩
  all_goals have ne : mine ≠ sock := fun same => other (same ▸ there)
  · simp [Function.update_of_ne ne]
  · rw [WsServer.deliver_frames, if_neg (by simpa using ne.symm)]
    rfl
  · simp [Function.update_of_ne ne]

theorem Tracks.detach {v : Viewer B} {s : WsServer B} (tracks : v.Tracks s) {sock : Nat}
    {id : String} {session : Session B} (found : s.sessions id = some session)
    : v.Tracks
        ({ s with socketToSession := Function.update s.socketToSession sock none }.setSession id
          (some {
            adapter := { session.adapter with sink := .noop }
            liveSink := .noop
            sock := none
            pruneTimer := true
          })) := by
  refine tracks.apart ⟨by simp, fun later now => ?_, by simp, fun mine there => .inl ⟨rfl, ?_, ?_⟩⟩
  · rw [WsServer.setSession_sessions] at now
    split at now
    · rename_i own
      cases now
      exact ⟨session, own ▸ found, List.prefix_refl _⟩
    · exact ⟨later, now, List.prefix_refl _⟩
  · intro other attached
    simp only [WsServer.setSession_socketToSession, Function.update_apply] at attached
    split at attached
    · cases attached
    · exact attached
  · intro later now
    rw [WsServer.setSession_sessions] at now
    split at now
    · rename_i own
      cases now
      exact ⟨session, own ▸ found, List.prefix_refl _, fun on => by cases on⟩
    · exact ⟨later, now, List.prefix_refl _, fun on => ⟨on, rfl⟩⟩

theorem Tracks.prune {v : Viewer B} {s : WsServer B} (tracks : v.Tracks s) (id : String)
    : v.Tracks (s.setSession id none) := by
  have kept : ∀ {key later}, (s.setSession id none).sessions key = some later →
      s.sessions key = some later := by
    intro key later now
    rw [WsServer.setSession_sessions] at now
    split at now
    · cases now
    · exact now
  exact tracks.apart ⟨by simp, fun later now => ⟨later, kept now, List.prefix_refl _⟩, by simp,
    fun mine _ => .inl ⟨rfl, fun _ => (·), fun later now =>
      ⟨later, kept now, List.prefix_refl _, fun on => ⟨on, rfl⟩⟩⟩⟩

/-- A socket that waited is gone before it was attached to anything. -/
theorem Tracks.drop {v : Viewer B} {s : WsServer B} (tracks : v.Tracks s) (coherent : s.Coherent)
    {sock : Nat} (waiting : s.pending sock = true)
    : v.Tracks { s with pending := Function.update s.pending sock false } := by
  by_cases mine : v.sock = some sock
  · obtain ⟨unread, own, knows⟩ := tracks.waits sock mine waiting
    obtain ⟨unmapped, empty⟩ := coherent.waiting waiting
    refine ⟨tracks.numbered, fun none => absurd (none.symm.trans mine) (by simp), tracks.born,
      ?_, ?_⟩
    · intro other there still
      rw [mine, Option.some.injEq] at there
      simp [there] at still
    · intro other there _
      rw [mine, Option.some.injEq] at there
      subst there
      refine ⟨v.held.length, by simp [empty], by simp [unread], ?_, ?_, .inl ⟨own, ?_, knows⟩⟩
      · intro session found
        rw [own] at found
        exact ⟨(knows session found).length_le, empty.symm ▸ List.nil_prefix,
          fun attached => absurd attached (coherent.not_attached unmapped found)⟩
      · intro id attached
        exact absurd (unmapped.symm.trans attached) (by simp)
      · rw [unread, Nat.add_zero]
  · refine tracks.apart ⟨Nat.le_refl _, grown_of_session rfl, fun other there => ?_, fun other _ =>
      .inl (.of_session rfl (fun _ => (·)) rfl)⟩
    have ne : other ≠ sock := fun same => mine (same ▸ there)
    exact Function.update_of_ne ne _ _

/-- Another client opens a session. -/
theorem Tracks.openSession {v : Viewer B} {s : WsServer B} (tracks : v.Tracks s)
    (coherent : s.Coherent) {sock : Nat} (waiting : s.pending sock = true)
    (other : v.sock ≠ some sock) {id : String} {fresh : FreshSession B}
    (apart : ∀ key ∈ (if id = "" then fresh.generated else id :: fresh.generated),
      key ≠ v.id ∧ key ≠ v.offered)
    : v.Tracks (s.openSession sock id fresh) := by
  unfold WsServer.openSession
  cases named : s.freshId id fresh.generated with
  | none => exact tracks
  | some key =>
      have free : s.sessions key = none := by simpa using List.find?_some named
      have away := apart key (List.mem_of_find?_eq_some named)
      have attached := WsServer.Move.attached sock key waiting free
      have first := attached.coherent coherent
      have tracked := tracks.attach other away
        { adapter := .fresh (.webSocket sock) key
          liveSink := .webSocket sock
          sock := some sock
          pruneTimer := false } []
      rw [WsServer.deliver_nil] at tracked
      have buffers (a : SessionAdapter B) : a.Emits { a with buffered := fresh.early } [] :=
        ⟨rfl, rfl, (List.append_nil _).symm, fun h => ⟨h.numbered, h.latest, h.capped, h.kept⟩⟩
      have buffering :=
        tracked.handle first key (fun a => ({ a with buffered := fresh.early }, [])) buffers
      exact buffering.handle (first.handle key buffers) key _ fun a =>
        a.emits_startStreaming fresh.snapshot fresh.initial fresh.clock

/-- Every callback that is permitted leaves the client on its line. -/
theorem Tracks.server {v : Viewer B} {s : WsServer B} (tracks : v.Tracks s) (coherent : s.Coherent)
    {event : WsEvent B} (permitted : Viewed.Permitted ⟨s, v⟩ (.server event))
    : v.Tracks (WsServer.step event s) := by
  cases event with
  | newConnection => exact tracks.onNewConnection
  | firstBinary sock frame fresh =>
      obtain ⟨other, apart⟩ := permitted
      simp only [WsServer.step, WsServer.onPendingFirstBinary]
      split
      · rename_i waiting
        cases frame with
        | malformed => exact tracks
        | other => exact tracks
        | subscribe id lastSeq =>
            dsimp only
            cases found : s.sessions id with
            | none => exact tracks.openSession coherent waiting other apart
            | some session =>
                dsimp only
                split
                · rename_i resumes
                  unfold WsServer.resumeSession
                  rw [coherent.named found]
                  exact tracks.attach other
                    (apart id (by simp [Viewed.namedBy, resumes.1])) _ _
                · exact tracks.openSession coherent waiting other apart
      · exact tracks
  | signal id body now => exact tracks.handle coherent id _ fun a => a.emits_sendOrBuffer body now
  | snapshotSignal id snapshot now =>
      exact tracks.handle coherent id _ fun a => a.emits_resendSnapshot snapshot now
  | disconnected sock =>
      simp only [WsServer.step, WsServer.onSocketDisconnected]
      split
      · rename_i waiting
        exact tracks.drop coherent waiting
      · cases mapped : s.socketToSession sock with
        | none => exact tracks
        | some id =>
            obtain ⟨session, found, -⟩ := coherent.attached.mp mapped
            simp only [found]
            exact tracks.detach found
  | pruneTimeout id =>
      simp only [WsServer.step, WsServer.pruneSession]
      split
      · exact tracks
      · split
        · exact tracks
        · exact tracks.prune id

-----------------------------------------------------------------------------------------
-- What the client does
-----------------------------------------------------------------------------------------

/-- What a resume replays is what was emitted past the number that is named, or past a later one,
and then there is something that shows it.
-/
theorem replaySince_drop {a : SessionAdapter B} (resumable : a.Resumable) {lastSeq : Nat}
    (seen : lastSeq ≤ a.history.length)
    : ∃ past, a.replaySince lastSeq = a.history.drop past ∧ past ≤ a.history.length
        ∧ (past = lastSeq ∨ a.replaySince lastSeq ≠ [] ∧ lastSeq < past) := by
  by_cases reaches : ∀ front ∈ a.ringBuffer.head?, front.seq ≤ lastSeq + 1
  · exact ⟨lastSeq, resumable.replaySince_eq reaches, seen, .inl rfl⟩
  · obtain ⟨le, latest, numbers⟩ := resumable.ring_numbered
    have length : a.history.length = a.seq := by
      simpa using congrArg List.length resumable.numbered
    cases ring : a.ringBuffer with
    | nil => simp [ring] at reaches
    | cons front rest =>
        have later : lastSeq + 1 < front.seq := by simpa [ring] using reaches
        have first : front.seq = a.seq - a.ringBuffer.length + 1 := by
          have head := congrArg List.head? numbers
          rw [ring] at head
          simpa [List.head?_range', ring] using head
        have all : a.replaySince lastSeq = a.ringBuffer := by
          unfold SessionAdapter.replaySince
          rw [SessionAdapter.filter_past lastSeq numbers,
            Nat.sub_eq_zero_of_le (by omega), List.drop_zero]
        refine ⟨a.seq - a.ringBuffer.length, all.trans latest, by omega, .inr ⟨?_, by omega⟩⟩
        simp [all, ring]

/-- What the adapter of a session that is opened has emitted by then. -/
def streamed (sock : Nat) (id : String) (fresh : FreshSession B)
    : SessionAdapter B × List (Envelope B) :=
  ({ SessionAdapter.fresh (.webSocket sock) id with
    buffered := fresh.early }).startStreaming fresh.snapshot fresh.initial fresh.clock

theorem emits_streamed (sock : Nat) (id : String) (fresh : FreshSession B)
    : (SessionAdapter.fresh (.webSocket sock) id).Emits (streamed sock id fresh).1
        (streamed sock id fresh).2 := by
  let buffering : SessionAdapter B := { SessionAdapter.fresh (.webSocket sock) id with
    buffered := fresh.early }
  have buffers : (SessionAdapter.fresh (.webSocket sock) id).Emits buffering [] :=
    ⟨rfl, rfl, rfl, fun h => ⟨h.numbered, h.latest, h.capped, h.kept⟩⟩
  exact buffers.trans (buffering.emits_startStreaming fresh.snapshot fresh.initial fresh.clock)

/-- The server after a session was opened: what its adapter emitted is on the socket. -/
theorem openSession_eq {s : WsServer B} {sock : Nat} {clientSessionId id : String}
    {fresh : FreshSession B} (named : s.freshId clientSessionId fresh.generated = some id)
    : s.openSession sock clientSessionId fresh
      = { nextSocket := s.nextSocket
          pending := Function.update s.pending sock false
          sessions := Function.update s.sessions id (some {
            adapter := (streamed sock id fresh).1
            liveSink := .webSocket sock
            sock := some sock
            pruneTimer := false })
          socketToSession := Function.update s.socketToSession sock (some id)
          frames := Function.update s.frames sock
            (s.frames sock ++ (streamed sock id fresh).2) } := by
  have sink := (emits_streamed sock id fresh).sink
  simp only [streamed, SessionAdapter.fresh] at sink
  simp [WsServer.openSession, named, WsServer.attachNewSession, WsServer.handle,
    WsServer.setSession, WsServer.deliver, sink, streamed, SessionAdapter.fresh]

/-- A client whose socket came to be attached is on its line. -/
theorem Tracks.settle {v : Viewer B} {s : WsServer B} {sock : Nat} (past : Nat)
    (numbered : v.held.map (·.seq) = List.range' 1 v.held.length) (there : v.sock = some sock)
    (born : sock < s.nextSocket) (settled : s.pending sock = false) (line : v.Line sock past s)
    : v.Tracks s where
  numbered := numbered
  idle := fun none => absurd (none.symm.trans there) (by simp)
  born := by
    intro other same
    rw [there, Option.some.injEq] at same
    exact same ▸ born
  waits := by
    intro other same waiting
    rw [there, Option.some.injEq] at same
    rw [← same, settled] at waiting
    cases waiting
  line := by
    intro other same _
    rw [there, Option.some.injEq] at same
    exact ⟨past, same ▸ line⟩

/-- The client's session goes on where it names, or with a gap that shows. -/
theorem Tracks.resumes {v : Viewer B} {s : WsServer B} (tracks : v.Tracks s) (coherent : s.Coherent)
    {sock : Nat} (there : v.sock = some sock) (waiting : s.pending sock = true)
    {session : Session B} (found : s.sessions v.id = some session) (named : v.id ≠ "")
    (detached : session.sock = none) (fresh : FreshSession B)
    : (WsServer.step (.firstBinary sock (.subscribe v.id v.lastSeq) fresh) s).socketToSession sock
        = some v.id
      ∧ Tracks { v with offered := v.id, renewed := false }
          (WsServer.step (.firstBinary sock (.subscribe v.id v.lastSeq) fresh) s) := by
  obtain ⟨unread, -, knows⟩ := tracks.waits sock there waiting
  have empty := (coherent.waiting waiting).2
  have resumable := coherent.resumable found
  have seen : v.held <+: session.adapter.history := knows session found
  obtain ⟨past, replay, reaches, ahead⟩ := replaySince_drop resumable seen.length_le
  have server : WsServer.step (.firstBinary sock (.subscribe v.id v.lastSeq) fresh) s
      = { s with pending := Function.update s.pending sock false }.resumeSession v.id session
          sock v.lastSeq := by
    simp [WsServer.step, WsServer.onPendingFirstBinary, waiting, found, detached, named]
  have replayed : ({ session.adapter with sink := .webSocket sock }
      : SessionAdapter B).replaySince v.lastSeq = session.adapter.history.drop past :=
    lastSeq_eq tracks.numbered ▸ replay
  have mapped : (WsServer.step (.firstBinary sock (.subscribe v.id v.lastSeq)
      fresh) s).socketToSession sock = some v.id := by
    rw [server, WsServer.resumeSession, coherent.named found]
    simp
  have frames : (WsServer.step (.firstBinary sock (.subscribe v.id v.lastSeq) fresh) s).frames
      sock = session.adapter.history.drop past := by
    rw [server, WsServer.resumeSession, replayed]
    simp [WsServer.deliver, WsServer.setSession, empty]
  have now : (WsServer.step (.firstBinary sock (.subscribe v.id v.lastSeq) fresh) s).sessions
      v.id = some {
        adapter := { session.adapter with sink := .webSocket sock }
        liveSink := .webSocket sock
        sock := some sock
        pruneTimer := false } := by
    rw [server, WsServer.resumeSession, WsServer.deliver_sessions]
    exact WsServer.setSession_sessions.trans (if_pos rfl)
  refine ⟨mapped, Tracks.settle past tracks.numbered there ?_ ?_ ⟨?_, ?_, ?_, ?_, ?_⟩⟩
  · rw [server]
    simpa [WsServer.resumeSession] using tracks.born sock there
  · rw [server]
    simp [WsServer.resumeSession]
  · obtain ⟨n, numbers⟩ := WsServer.numbered_drop resumable past
    have length : (session.adapter.history.drop past).length = n := by
      simpa using congrArg List.length numbers
    rw [frames, numbers, length]
  · simp [unread]
  · intro other found'
    rw [now, Option.some.injEq] at found'
    subst found'
    exact ⟨reaches, frames ▸ List.prefix_refl _, fun _ => frames⟩
  · intro other attached
    rw [mapped, Option.some.injEq] at attached
    exact attached.symm
  · have still : Knows { v with offered := v.id, renewed := false }
        (WsServer.step (.firstBinary sock (.subscribe v.id v.lastSeq) fresh) s) := by
      intro other found'
      rw [now, Option.some.injEq] at found'
      subst found'
      exact seen
    rcases ahead with same | ⟨some, later⟩
    · exact .inl ⟨rfl, by simp [unread, same], still⟩
    · exact .inr ⟨unread, by rw [frames, ← replay]; exact some, .inr later, .inl still⟩

/-- Another session begins for the client, if an id was drawn that is free. -/
theorem Tracks.opens {v : Viewer B} {s : WsServer B} (tracks : v.Tracks s) (coherent : s.Coherent)
    {sock : Nat} (there : v.sock = some sock) (waiting : s.pending sock = true)
    (fresh : FreshSession B)
    : Tracks { v with
          offered := ((s.openSession sock v.id fresh).socketToSession sock).getD v.id
          renewed := ((s.openSession sock v.id fresh).socketToSession sock).isSome
            && (s.sessions v.id).isNone }
        (s.openSession sock v.id fresh) := by
  obtain ⟨unread, own, knows⟩ := tracks.waits sock there waiting
  obtain ⟨unmapped, empty⟩ := coherent.waiting waiting
  cases named : s.freshId v.id fresh.generated with
  | none =>
      have same : s.openSession sock v.id fresh = s := by simp [WsServer.openSession, named]
      rw [same]
      simp only [unmapped, Option.getD_none, Option.isSome_none, Bool.false_and]
      refine ⟨tracks.numbered, tracks.idle, tracks.born, fun other same still =>
        ⟨unread, rfl, knows⟩, fun other same settled => ?_⟩
      rw [there, Option.some.injEq] at same
      rw [← same, waiting] at settled
      cases settled
  | some id =>
      have free : s.sessions id = none := by simpa using List.find?_some named
      have emits := emits_streamed sock id fresh
      have history : (streamed sock id fresh).1.history = (streamed sock id fresh).2 :=
        emits.history
      have some : (streamed sock id fresh).2 ≠ [] := by
        simp [streamed, SessionAdapter.startStreaming, SessionAdapter.emitEnvelope]
      have numbers := (emits.resumable (SessionAdapter.resumable_fresh _ _)).numbered
      have length : (streamed sock id fresh).2.length = (streamed sock id fresh).1.seq := by
        simpa [history] using congrArg List.length numbers
      rw [openSession_eq named]
      simp only [Function.update_self, Option.getD_some, Option.isSome_some, Bool.true_and]
      refine Tracks.settle 0 tracks.numbered there (tracks.born sock there) (by simp)
        ⟨?_, by simp [unread], ?_, ?_, .inr ⟨unread, by simpa [empty] using some, .inl rfl, ?_⟩⟩
      · simp only [Function.update_self, empty, List.nil_append]
        rw [← history, numbers, history, length]
      · intro session found
        simp only [Function.update_self, Option.some.injEq] at found
        subst found
        simp [empty, history]
      · intro other attached
        simpa [eq_comm] using attached
      · cases found : s.sessions v.id with
        | none => exact .inr (by simp)
        | some session =>
            left
            intro other found'
            have ne : v.id ≠ id := by
              intro same
              rw [same, free] at found
              cases found
            simp only [Function.update_of_ne ne] at found'
            exact knows other found'

/-- The client's own `Subscribe`. -/
theorem Tracks.subscribe {w : Viewed B} (tracks : w.viewer.Tracks w.server)
    (coherent : w.server.Coherent) (fresh : FreshSession B)
    : (Viewed.step (.subscribe fresh) w).viewer.Tracks
        (Viewed.step (.subscribe fresh) w).server := by
  obtain ⟨s, v⟩ := w
  replace tracks : v.Tracks s := tracks
  replace coherent : s.Coherent := coherent
  cases there : v.sock with
  | none => simpa [Viewed.step, there] using tracks
  | some sock =>
      by_cases waiting : s.pending sock = true
      swap
      · simpa [Viewed.step, there, waiting] using tracks
      simp only [Viewed.step, there, waiting, if_true]
      by_cases resumes : ∃ session, s.sessions v.id = some session ∧ v.id ≠ "" ∧ session.sock = none
      · obtain ⟨session, found, named, detached⟩ := resumes
        obtain ⟨mapped, on⟩ := tracks.resumes coherent there waiting found named detached fresh
        simpa [mapped, found, there] using on
      · have server : WsServer.step (.firstBinary sock (.subscribe v.id v.lastSeq) fresh) s
            = s.openSession sock v.id fresh := by
          simp only [WsServer.step, WsServer.onPendingFirstBinary, waiting, if_true]
          cases found : s.sessions v.id with
          | none => rfl
          | some session => exact if_neg fun both => resumes ⟨session, found, both⟩
        rw [server]
        simpa [there] using tracks.opens coherent there waiting fresh

/-- A list goes on with the element that stands next. -/
theorem prefix_concat {α : Type} {first all : List α} {next : α} (start : first <+: all)
    (there : all[first.length]? = some next)
    : first ++ [next] <+: all := by
  obtain ⟨rest, rfl⟩ := start
  rw [List.getElem?_append_right (Nat.le_refl _), Nat.sub_self] at there
  cases rest with
  | nil => cases there
  | cons head tail =>
      rw [List.getElem?_cons_zero, Option.some.injEq] at there
      exact ⟨tail, by rw [there, List.append_assoc, List.singleton_append]⟩

/-- The number of an envelope on a line. -/
theorem Line.seq {v : Viewer B} {sock past : Nat} {s : WsServer B} (line : v.Line sock past s)
    {env : Envelope B} (next : (s.frames sock)[v.taken]? = some env)
    : env.seq = past + v.taken + 1 := by
  have there := congrArg (·[v.taken]?) line.numbered
  obtain ⟨inside, -⟩ := List.getElem?_eq_some_iff.mp next
  simp only [List.getElem?_map, next, Option.map_some, List.getElem?_range' inside,
    Option.some.injEq] at there
  omega

/-- An envelope on a line stands in the history of its session. -/
theorem Line.history {v : Viewer B} {sock past : Nat} {s : WsServer B} (line : v.Line sock past s)
    {env : Envelope B} (next : (s.frames sock)[v.taken]? = some env) {session : Session B}
    (found : s.sessions v.offered = some session)
    : session.adapter.history[past + v.taken]? = some env := by
  obtain ⟨-, ⟨rest, whole⟩, -⟩ := line.whole session found
  obtain ⟨inside, -⟩ := List.getElem?_eq_some_iff.mp next
  rw [← List.getElem?_drop, ← whole, List.getElem?_append_left inside, next]

/-- After the first envelope that follows, the client has read on. -/
theorem Line.reads {v : Viewer B} {sock past : Nat} {s : WsServer B} (line : v.Line sock past s)
    {env : Envelope B} (next : (s.frames sock)[v.taken]? = some env) {held : List (Envelope B)}
    (length : past + v.taken = held.length)
    (knows : ∀ session, s.sessions v.offered = some session → held <+: session.adapter.history)
    : Line { v with id := v.offered, held := held ++ [env], taken := v.taken + 1 } sock past s where
  numbered := line.numbered
  taken := (List.getElem?_eq_some_iff.mp next).1
  whole := line.whole
  mapped := line.mapped
  mode := by
    refine .inl ⟨rfl, by simp [← length, Nat.add_assoc], fun session found => ?_⟩
    exact prefix_concat (knows session found) (length ▸ line.history next found)

theorem tracks_start (id : String) (s : WsServer B) : (start id).Tracks s where
  numbered := rfl
  idle := fun _ _ _ => List.nil_prefix
  born := by simp [start]
  waits := by simp [start]
  line := by simp [start]

/-- The client reads one envelope. -/
theorem Tracks.read {v : Viewer B} {s : WsServer B} (tracks : v.Tracks s) (coherent : s.Coherent)
    {sock : Nat} (there : v.sock = some sock) {env : Envelope B}
    (next : (s.frames sock)[v.taken]? = some env)
    : (v.receive env).Tracks s := by
  have settled : s.pending sock = false := by
    by_contra waits
    rw [(coherent.waiting (by simpa using waits)).2] at next
    cases next
  have born := tracks.born sock there
  have last := lastSeq_eq tracks.numbered
  obtain ⟨past, line⟩ := tracks.line sock there settled
  have seq := line.seq next
  rcases line.mode with ⟨own, read, knows⟩ | ⟨unread, -, ahead, -⟩
  · have follows : env.seq = v.lastSeq + 1 := by omega
    have numbered : (v.held ++ [env]).map (·.seq) = List.range' 1 (v.held ++ [env]).length := by
      rw [List.map_append, tracks.numbered, List.length_append, List.length_singleton,
        List.range'_concat]
      simp [follows, last, Nat.add_comm]
    rw [receive, if_pos follows]
    exact .settle past numbered there born settled (line.reads next read (own ▸ knows))
  · rcases ahead with none | later
    · have first : env.seq = 1 := by omega
      have begun : v.receive env
          = { v with id := v.offered, held := [] ++ [env], taken := v.taken + 1 } := by
        unfold receive
        split
        · rename_i follows
          have empty : v.held = [] := List.length_eq_zero_iff.mp (by omega)
          rw [empty]
        · rfl
      rw [begun]
      exact .settle past (by simp [first]) there born settled
        (line.reads next (by simp [none, unread]) fun _ _ => List.nil_prefix)
    · have gap : v.receive env = .start "" := by
        rw [receive, if_neg (by omega), if_neg (by omega)]
      rw [gap]
      exact tracks_start "" s

/-- The client connects. -/
theorem Tracks.connect {v : Viewer B} {s : WsServer B} (tracks : v.Tracks s)
    (idle : v.sock = none)
    : Tracks { v with sock := some s.nextSocket, offered := v.id, renewed := false, taken := 0 }
        s.onNewConnection := by
  have knows := tracks.idle idle
  refine ⟨tracks.numbered, by simp, ?_, fun _ _ _ => ⟨rfl, rfl, knows⟩, ?_⟩
  · intro sock there
    cases there
    exact Nat.lt_succ_self _
  · intro sock there settled
    cases there
    simp [WsServer.onNewConnection] at settled

/-- The client finds its socket gone. -/
theorem Tracks.lose {v : Viewer B} {s : WsServer B} (tracks : v.Tracks s)
    (permitted : Viewed.Permitted ⟨s, v⟩ .lose)
    : Tracks { v with sock := none, offered := v.id, renewed := false, taken := 0 } s := by
  have knows : v.Knows s := by
    cases there : v.sock with
    | none => exact tracks.idle there
    | some sock =>
        cases waiting : s.pending sock with
        | true => exact (tracks.waits sock there waiting).2.2
        | false =>
            obtain ⟨past, line⟩ := tracks.line sock there waiting
            rcases line.mode with ⟨-, -, knows⟩ | ⟨unread, -, -, knows | renewed⟩
            · exact knows
            · exact knows
            · intro session _
              have empty : v.held = [] := permitted renewed unread
              exact empty ▸ List.nil_prefix
  exact ⟨tracks.numbered, fun _ => knows, by simp, by simp, by simp⟩

end Viewer

-----------------------------------------------------------------------------------------
-- Runs
-----------------------------------------------------------------------------------------

namespace Viewed

/-- Every permitted event leaves the client on its line. -/
theorem tracks_step {w : Viewed B} {event : ViewedEvent B} (permitted : Permitted w event)
    (h : w.server.Coherent ∧ w.viewer.Tracks w.server)
    : (step event w).server.Coherent ∧ (step event w).viewer.Tracks (step event w).server := by
  obtain ⟨coherent, tracks⟩ := h
  have keeps : ∀ call, (WsServer.step call w.server).Coherent := fun call =>
    (coherent.step_induction (I := fun _ => True) (fun _ _ _ => trivial) trivial call).1
  cases event with
  | server call => exact ⟨keeps call, tracks.server coherent permitted⟩
  | connect =>
      simp only [step]
      split
      · rename_i idle
        exact ⟨coherent.onNewConnection, tracks.connect idle⟩
      · exact ⟨coherent, tracks⟩
  | subscribe fresh =>
      refine ⟨?_, tracks.subscribe coherent fresh⟩
      simp only [step]
      split
      · exact coherent
      · split
        · exact keeps (.firstBinary _ (.subscribe _ _) fresh)
        · exact coherent
  | read =>
      simp only [step]
      split
      · exact ⟨coherent, tracks⟩
      · rename_i sock there
        split
        · exact ⟨coherent, tracks⟩
        · rename_i env next
          exact ⟨coherent, tracks.read coherent there next⟩
  | lose => exact ⟨coherent, tracks.lose permitted⟩

theorem tracks_of_reaches {id : String} {w : Viewed B}
    (reached : Machine.Reaches step Permitted (start id) w)
    : w.server.Coherent ∧ w.viewer.Tracks w.server :=
  reached.invariant ⟨WsServer.coherent_start, Viewer.tracks_start id _⟩ fun _ _ permitted h =>
    tracks_step permitted h

/-- A client that has read what came on its attached socket holds the stream of its session. -/
theorem held_eq_history {id : String} {w : Viewed B}
    (reached : Machine.Reaches step Permitted (start id) w) {sock : Nat} {key : String}
    (there : w.viewer.sock = some sock) (attached : w.server.socketToSession sock = some key)
    (all : w.viewer.taken = (w.server.frames sock).length)
    : ∃ session, w.server.sessions key = some session ∧ w.viewer.id = key
        ∧ w.viewer.held = session.adapter.history := by
  obtain ⟨coherent, tracks⟩ := tracks_of_reaches reached
  have settled : w.server.pending sock = false := by
    by_contra waits
    rw [(coherent.waiting (by simpa using waits)).1] at attached
    cases attached
  obtain ⟨past, line⟩ := tracks.line sock there settled
  have own : key = w.viewer.offered := line.mapped key attached
  obtain ⟨session, found, on⟩ := coherent.attached.mp attached
  obtain ⟨reaches, -, whole⟩ := line.whole session (own ▸ found)
  rcases line.mode with ⟨same, read, knows⟩ | ⟨unread, some, -, -⟩
  · refine ⟨session, found, (own.trans same).symm, ?_⟩
    refine (knows session (same ▸ own ▸ found)).eq_of_length ?_
    have length := congrArg List.length (whole on)
    rw [List.length_drop] at length
    omega
  · exact absurd (List.length_eq_zero_iff.mp (all.symm.trans unread)) some

/-- In every state of every run, what the client holds is numbered from one without a gap, and
once it has read what came on its socket, while that is attached, it holds the whole stream of its
session: whatever sockets it had before, and whatever it had not read on them.
-/
theorem viewer_exact {id : String} {w : Viewed B}
    (reached : Machine.Reaches step Permitted (start id) w)
    : w.viewer.held.map (·.seq) = List.range' 1 w.viewer.held.length
      ∧ ∀ sock key, w.viewer.sock = some sock → w.server.socketToSession sock = some key →
          w.viewer.taken = (w.server.frames sock).length →
            ∃ session, w.server.sessions key = some session ∧ w.viewer.id = key
                ∧ w.viewer.held = session.adapter.history :=
  ⟨(tracks_of_reaches reached).2.numbered, fun _ _ there attached all =>
    held_eq_history reached there attached all⟩

instance (w : Viewed B) (event : ViewedEvent B) : Decidable (Permitted w event) :=
  match event with
  | .server (.firstBinary sock frame fresh) =>
      inferInstanceAs (Decidable (w.viewer.sock ≠ some sock
        ∧ ∀ id ∈ namedBy fresh frame, id ≠ w.viewer.id ∧ id ≠ w.viewer.offered))
  | .lose => decidable_of_iff
      (w.viewer.renewed = false ∨ w.viewer.taken ≠ 0 ∨ w.viewer.held.isEmpty = true) (by
        rw [← Bool.not_eq_true, List.isEmpty_iff, Permitted, imp_iff_not_or, imp_iff_not_or])
  | .server .newConnection => isTrue trivial
  | .server (.signal _ _ _) => isTrue trivial
  | .server (.snapshotSignal _ _ _) => isTrue trivial
  | .server (.disconnected _) => isTrue trivial
  | .server (.pruneTimeout _) => isTrue trivial
  | .connect => isTrue trivial
  | .subscribe _ => isTrue trivial
  | .read => isTrue trivial

/-- A client reads the snapshot and loses its socket while two envelopes are on it and one more is
emitted. On the next socket it reads what it is sent.
-/
def lossyRun : List (ViewedEvent Nat) :=
  [.connect, .subscribe WsServer.sampleFresh, .read, .server (.signal "a" 12 6), .lose,
    .server (.disconnected 0), .server (.signal "a" 13 7), .connect,
    .subscribe WsServer.sampleFresh, .read, .read, .read]

theorem viewer_exact_lossy
    : ∃ session, (Machine.exec step (start "a") lossyRun).server.sessions "a" = some session
        ∧ session.adapter.history.map (·.body) = [10, 11, 12, 13]
        ∧ (Machine.exec step (start "a") lossyRun).viewer.held = session.adapter.history := by
  have reached : Machine.Reaches step Permitted (start "a")
      (Machine.exec step (start "a") lossyRun) := Machine.reaches_exec (by decide)
  obtain ⟨session, found, -, held⟩ :=
    (viewer_exact reached).2 1 "a" (by decide) (by decide) (by decide)
  refine ⟨session, found, ?_, held⟩
  rw [← held]
  decide

/-- The session is pruned, another one begins under its id, and the socket is lost before the
client has read of it: then it goes on in the middle of a stream that it does not know.
-/
example
    : (Machine.exec step (start "a") (lossyRun ++
          [.server (.disconnected 1), .lose, .server (.pruneTimeout "a"), .connect,
            .subscribe { WsServer.sampleFresh with snapshot := 20, initial := [21, 22, 23] },
            .server (.signal "a" 24 9), .server (.disconnected 2), .lose, .connect,
            .subscribe WsServer.sampleFresh, .read])).viewer.held.map (·.body)
      = [10, 11, 12, 13, 24] := by
  decide

end Viewed

end Scry
