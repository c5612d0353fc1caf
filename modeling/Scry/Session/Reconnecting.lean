import Mathlib.Data.List.Nodup
import Scry.Session.Feeds
import Scry.Session.Viewer

/-! Clients of a source that lose their sockets and connect again. The sessions of a server are the
sessions of a feed, whatever becomes of their sockets, and a client that has read what there is
holds the stream of its session. So it shows the source, as one does that was never away.
-/

namespace Scry

variable {σ ω B κ : Type}

/-- A source, the server, the ids of the sessions in the order in which their adapters were
connected to the source's signals, and one of the clients.
-/
structure Served (σ B : Type) where
  source : σ
  connected : List String
  viewed : Viewed B

/-- What can happen: an operation of the source, whose signals reach the sessions one after
another; a slot that sends a snapshot again; a callback of the server; or something the client
does.
-/
inductive ServedEvent (ω : Type)
  | operate (op : ω) (clock : Nat → Int)
  | refreshed (id : String) (now : Int)
  | newConnection
  | firstBinary (sock : Nat) (frame : ClientFrame) (generated : List String) (clock : Nat → Int)
  | disconnected (sock : Nat)
  | pruneTimeout (id : String)
  | connect
  | subscribe (generated : List String) (clock : Nat → Int)
  | read
  | lose

/-- The calls of one session's slots by signals. -/
def signals (id : String) (clock : Nat → Int) : List B → List (WsEvent B)
  | [] => []
  | body :: rest => .signal id body (clock 0) :: signals id (fun n => clock (n + 1)) rest

namespace FeedSource

variable (src : FeedSource σ ω B)

/-- What a session brings that is opened now. Nothing comes in between before its `Subscribe`. -/
def fresh (s : σ) (generated : List String) (clock : Nat → Int) : FreshSession B :=
  { generated, early := [], snapshot := src.snapshot s, initial := src.initial s, clock }

/-- What an event calls. -/
def calls (event : ServedEvent ω) (b : Served σ B) : List (ViewedEvent B) :=
  match event with
  | .operate op clock =>
      (b.connected.flatMap fun id => signals id clock (src.sends op b.source)).map .server
  | .refreshed id now => [.server (.snapshotSignal id (src.snapshot b.source) now)]
  | .newConnection => [.server .newConnection]
  | .firstBinary sock frame generated clock =>
      [.server (.firstBinary sock frame (src.fresh b.source generated clock))]
  | .disconnected sock => [.server (.disconnected sock)]
  | .pruneTimeout id => [.server (.pruneTimeout id)]
  | .connect => [.connect]
  | .subscribe generated clock => [.subscribe (src.fresh b.source generated clock)]
  | .read => [.read]
  | .lose => [.lose]

/-- What becomes of the source. -/
def next (event : ServedEvent ω) (s : σ) : σ :=
  match event with
  | .operate op _ => src.step op s
  | _ => s

/-- The socket whose first frame an event brings. -/
def framed (event : ServedEvent ω) (v : Viewer B) : Option Nat :=
  match event with
  | .firstBinary sock _ _ _ => some sock
  | .subscribe _ _ => v.sock
  | _ => none

/-- An adapter that was made is connected behind the others, and one that was destroyed is so no
more.
-/
def reconnected (connected : List String) (sock : Option Nat) (t : WsServer B) : List String :=
  let made := (sock.bind t.socketToSession).toList.filter fun id => id ∉ connected
  (connected ++ made).filter fun id => (t.sessions id).isSome

/-- One event. -/
def serve (event : ServedEvent ω) (b : Served σ B) : Served σ B :=
  let viewed := Machine.exec Viewed.step b.viewed (src.calls event b)
  { source := src.next event b.source
    connected := reconnected b.connected (framed event b.viewed.viewer) viewed.server
    viewed }

/-- Before the first connection. -/
def opening (s : σ) (id : String) : Served σ B :=
  { source := s, connected := [], viewed := .start id }

/-- What is called is permitted. -/
def Allowed (b : Served σ B) (event : ServedEvent ω) : Prop :=
  Machine.Permits Viewed.step Viewed.Permitted b.viewed (src.calls event b)

instance (b : Served σ B) (event : ServedEvent ω) : Decidable (src.Allowed b event) :=
  inferInstanceAs (Decidable (Machine.Permits _ _ _ _))

end FeedSource

-----------------------------------------------------------------------------------------
-- The adapters of a server
-----------------------------------------------------------------------------------------

namespace WsServer

/-- The adapters of the sessions. -/
def adapters (s : WsServer B) (id : String) : Option (SessionAdapter B) :=
  (s.sessions id).map (·.adapter)

/-- Every session has subscribed. -/
def AllLive (s : WsServer B) : Prop := ∀ id a, s.adapters id = some a → a.subscribed = true

theorem adapters_setSession (s : WsServer B) (id : String) (session : Option (Session B))
    : (s.setSession id session).adapters
      = Function.update s.adapters id (session.map (·.adapter)) := by
  funext other
  rw [adapters, setSession_sessions, Function.update_apply]
  split <;> rfl

theorem adapters_handle (s : WsServer B) (id : String)
    (slot : SessionAdapter B → SessionAdapter B × List (Envelope B))
    : (s.handle id slot).adapters
      = Function.update s.adapters id ((s.adapters id).map fun a => (slot a).1) := by
  cases found : s.sessions id with
  | none =>
      have none : s.adapters id = none := by simp [adapters, found]
      rw [none, Option.map_none, ← none, Function.update_eq_self]
      simp [handle, found]
  | some session =>
      have some : s.adapters id = some session.adapter := by simp [adapters, found]
      rw [some, Option.map_some]
      simp only [handle, found]
      funext other
      rw [adapters, deliver_sessions]
      exact congrFun (adapters_setSession s id _) other

theorem adapters_resumeSession (s : WsServer B) (id : String) (session : Session B)
    (sock lastSeq : Nat)
    : (s.resumeSession id session sock lastSeq).adapters
      = Function.update s.adapters id (some { session.adapter with sink := .webSocket sock }) := by
  funext other
  rw [resumeSession, adapters, deliver_sessions]
  exact congrFun (adapters_setSession s id _) other

/-- A socket that goes takes the sink of its session with it. -/
theorem adapters_disconnected (s : WsServer B) (sock : Nat)
    : (s.onSocketDisconnected sock).adapters = s.adapters
      ∨ ∃ id session, s.sessions id = some session
          ∧ (s.onSocketDisconnected sock).adapters
            = Function.update s.adapters id (some { session.adapter with sink := .noop }) := by
  unfold onSocketDisconnected
  split
  · exact .inl rfl
  · split
    · exact .inl rfl
    · rename_i id _
      split
      · exact .inl rfl
      · rename_i session found
        exact .inr ⟨id, session, found, adapters_setSession _ _ _⟩

theorem adapters_pruneSession (s : WsServer B) (id : String)
    : (s.pruneSession id).adapters = s.adapters
      ∨ (s.pruneSession id).adapters = Function.update s.adapters id none := by
  unfold pruneSession
  split
  · exact .inl rfl
  · split
    · exact .inl rfl
    · exact .inr (adapters_setSession s id none)

theorem sendOrBuffer_subscribed (a : SessionAdapter B) (body : B) (now : Int)
    : (a.sendOrBuffer body now).1.subscribed = a.subscribed := by
  unfold SessionAdapter.sendOrBuffer
  split <;> rfl

theorem hear_subscribed {a : SessionAdapter B} (on : a.subscribed = true) (early : B → Bool)
    (clock : Nat → Int) (sends : List B)
    : (a.hear early clock sends).subscribed = true := by
  induction sends generalizing a clock with
  | nil => exact on
  | cons body rest ih =>
      simp only [SessionAdapter.hear, on, Bool.true_or, if_true]
      exact ih ((sendOrBuffer_subscribed a body _).trans on) _

/-- The calls of a session's slots are what its adapter hears, by induction on the signals. -/
theorem adapters_signals {s : WsServer B} {id : String}
    (on : ∀ a, s.adapters id = some a → a.subscribed = true) (early : B → Bool)
    (clock : Nat → Int) (sends : List B)
    : (Machine.exec step s (signals id clock sends)).adapters
      = Function.update s.adapters id
          ((s.adapters id).map fun a => a.hear early clock sends) := by
  induction sends generalizing s clock with
  | nil => simp [signals, Machine.exec, SessionAdapter.hear]
  | cons body rest ih =>
      have first := adapters_handle s id (·.sendOrBuffer body (clock 0))
      rw [signals, Machine.exec, step, ih, first, Function.update_self, Function.update_idem,
        Option.map_map]
      · congr 1
        refine Option.map_congr fun a there => ?_
        simp [SessionAdapter.hear, on a there]
      · intro a there
        rw [first, Function.update_self, Option.map_eq_some_iff] at there
        obtain ⟨b, before, rfl⟩ := there
        exact (sendOrBuffer_subscribed b _ _).trans (on b before)

/-- Signals that reach each of some sessions once, by induction on these. -/
theorem adapters_told {s : WsServer B} (live : s.AllLive) (early : B → Bool) (clock : Nat → Int)
    (sends : List B) {ids : List String} (once : ids.Nodup)
    : (Machine.exec step s (ids.flatMap fun id => signals id clock sends)).adapters
      = fun id =>
          if id ∈ ids then (s.adapters id).map fun a => a.hear early clock sends
          else s.adapters id := by
  induction ids generalizing s with
  | nil => simp [Machine.exec]
  | cons id rest ih =>
      obtain ⟨new, others⟩ := List.nodup_cons.mp once
      have first := adapters_signals (live id) early clock sends
      rw [List.flatMap_cons, Machine.exec_append, ih _ others, first]
      · funext other
        by_cases same : other = id
        · subst same
          simp [new]
        · simp [same]
      · intro other a there
        rw [first, Function.update_apply] at there
        split at there
        · obtain ⟨b, before, rfl⟩ := Option.map_eq_some_iff.mp there
          exact hear_subscribed (live id b before) early clock sends
        · exact live other a there

/-- A session that is opened is the only new one, and its socket is attached to it. -/
theorem opened_made {s : WsServer B} {sock : Nat} {key id : String} {fresh : FreshSession B}
    (new : s.adapters id = none) (made : (s.openSession sock key fresh).adapters id ≠ none)
    : (s.openSession sock key fresh).socketToSession sock = some id := by
  cases named : s.freshId key fresh.generated with
  | none => simp [openSession, named, new] at made
  | some free =>
      rw [Viewer.openSession_eq named] at made ⊢
      by_cases same : id = free
      · simp [same]
      · have kept : s.sessions id = none := by simpa [adapters] using new
        simp [adapters, Function.update_of_ne same, kept] at made

/-- Only a first frame makes a session, and its socket is attached to that. -/
theorem session_made {s : WsServer B} {event : WsEvent B} {id : String}
    (new : s.adapters id = none) (made : (step event s).adapters id ≠ none)
    : ∃ sock frame fresh, event = .firstBinary sock frame fresh
        ∧ (step event s).socketToSession sock = some id := by
  have elsewhere {key : String} {session : Session B} (found : s.sessions key = some session)
      (set : Option (SessionAdapter B))
      : Function.update s.adapters key set id = none := by
    rw [Function.update_of_ne, new]
    rintro rfl
    simp [adapters, found] at new
  have handled (key : String) (slot : SessionAdapter B → SessionAdapter B × List (Envelope B))
      : (s.handle key slot).adapters id = none := by
    rw [adapters_handle, Function.update_apply]
    split
    · rename_i same
      rw [← same, new, Option.map_none]
    · exact new
  cases event with
  | newConnection => exact absurd new made
  | firstBinary sock frame fresh =>
      refine ⟨sock, frame, fresh, rfl, ?_⟩
      simp only [step, onPendingFirstBinary] at made ⊢
      split at made
      swap
      · exact absurd new made
      rename_i waiting
      rw [if_pos waiting]
      cases frame with
      | malformed => exact absurd new made
      | other => exact absurd new made
      | subscribe key lastSeq =>
          dsimp only at made ⊢
          cases found : s.sessions key with
          | none =>
              simp only [found] at made
              exact opened_made new made
          | some session =>
              simp only [found] at made ⊢
              split at made
              · rw [adapters_resumeSession] at made
                exact absurd (elsewhere found _) made
              · rename_i another
                rw [if_neg another]
                exact opened_made new made
  | signal key body now => exact absurd (handled key _) made
  | snapshotSignal key snapshot now => exact absurd (handled key _) made
  | disconnected sock =>
      rcases adapters_disconnected s sock with same | ⟨key, session, found, same⟩
      · rw [step, same] at made
        exact absurd new made
      · rw [step, same] at made
        exact absurd (elsewhere found _) made
  | pruneTimeout key =>
      rcases adapters_pruneSession s key with same | same
      · rw [step, same] at made
        exact absurd new made
      · rw [step, same, Function.update_apply] at made
        split at made
        · exact absurd rfl made
        · exact absurd new made

end WsServer

-----------------------------------------------------------------------------------------
-- A server's sessions are those of a feed
-----------------------------------------------------------------------------------------

/-- The source with the adapters of the server's sessions. -/
def Served.fed (b : Served σ B) : Fed σ B :=
  { source := b.source, sessions := b.viewed.server.adapters }

namespace FeedSource

variable {src : FeedSource σ ω B}

/-- What became of the adapters, events of the feed do as well. -/
def Matched (src : FeedSource σ ω B) (source : σ) (s t : WsServer B) : Prop :=
  t.AllLive ∧ ∃ events, Machine.exec src.happen { source, sessions := s.adapters } events
    = { source, sessions := t.adapters }

theorem matched_of_adapters {source : σ} {s t : WsServer B} (live : s.AllLive)
    (same : t.adapters = s.adapters)
    : src.Matched source s t :=
  ⟨fun id a there => live id a (same ▸ there), [], by rw [same]; rfl⟩

/-- One adapter was replaced by another that has subscribed, or its session went. -/
theorem matched_of_update {source : σ} {s t : WsServer B} (live : s.AllLive) {id : String}
    {a : Option (SessionAdapter B)} (set : t.adapters = Function.update s.adapters id a)
    (on : ∀ b, a = some b → b.subscribed = true) (events : List (FeedEvent ω))
    (run : Machine.exec src.happen { source, sessions := s.adapters } events
      = { source, sessions := Function.update s.adapters id a })
    : src.Matched source s t := by
  refine ⟨fun other b there => ?_, events, by rw [run, set]⟩
  rw [set, Function.update_apply] at there
  split at there
  · exact on b there
  · exact live other b there

/-- A session gets a socket or loses it. -/
theorem matched_sinkSet {source : σ} {s t : WsServer B} (live : s.AllLive) {id : String}
    {session : Session B} (found : s.sessions id = some session) (sink : EnvelopeSink)
    (set : t.adapters = Function.update s.adapters id (some { session.adapter with sink }))
    : src.Matched source s t := by
  have there : s.adapters id = some session.adapter := by simp [WsServer.adapters, found]
  refine matched_of_update live set (fun b same => ?_) [.sinkSet id sink] ?_
  · cases same
    exact live id session.adapter there
  · simp [Machine.exec, happen, tell, there]

/-- A session that is opened is one that subscribes at once. -/
theorem matched_openSession {source : σ} {s : WsServer B} (live : s.AllLive) (sock : Nat)
    (clientSessionId : String) (generated : List String) (clock : Nat → Int)
    : src.Matched source s
        (s.openSession sock clientSessionId (src.fresh source generated clock)) := by
  cases named : s.freshId clientSessionId generated with
  | none =>
      refine matched_of_adapters live ?_
      simp [WsServer.openSession, fresh, named]
  | some id =>
      have free : s.sessions id = none := by simpa using List.find?_some named
      have unused : s.adapters id = none := by simp [WsServer.adapters, free]
      have streams : (Viewer.streamed sock id (src.fresh source generated clock)).1
          = (SessionAdapter.fresh (.webSocket sock) id).subscribe (src.snapshot source)
              (src.initial source) clock := by
        simp [Viewer.streamed, fresh, SessionAdapter.subscribe, SessionAdapter.fresh]
      have opened : (s.openSession sock clientSessionId (src.fresh source generated clock)).adapters
          = Function.update s.adapters id
              (some (Viewer.streamed sock id (src.fresh source generated clock)).1) := by
        rw [Viewer.openSession_eq named]
        exact WsServer.adapters_setSession s id _
      refine matched_of_update live opened (fun b same => ?_)
        [.opened id (.webSocket sock), .subscribed id clock] ?_
      · cases same
        rw [streams]
        exact (SessionAdapter.settled_subscribe (SessionAdapter.settled_fresh (fun _ => true) _ _)
          _ _ _).2
      · simp [Machine.exec, happen, tell, unused, streams]

/-- The first frame on a socket. -/
theorem matched_firstBinary {source : σ} {s : WsServer B} (live : s.AllLive) (sock : Nat)
    (frame : ClientFrame) (generated : List String) (clock : Nat → Int)
    : src.Matched source s
        (WsServer.step (.firstBinary sock frame (src.fresh source generated clock)) s) := by
  simp only [WsServer.step, WsServer.onPendingFirstBinary]
  split
  swap
  · exact matched_of_adapters live rfl
  cases frame with
  | malformed => exact matched_of_adapters live rfl
  | other => exact matched_of_adapters live rfl
  | subscribe id lastSeq =>
      dsimp only
      cases found : s.sessions id with
      | none => exact matched_openSession live sock id generated clock
      | some session =>
          dsimp only
          split
          · exact matched_sinkSet live found (.webSocket sock)
              (WsServer.adapters_resumeSession _ id session sock lastSeq)
          · exact matched_openSession live sock id generated clock

theorem matched_disconnected {source : σ} {s : WsServer B} (live : s.AllLive) (sock : Nat)
    : src.Matched source s (s.onSocketDisconnected sock) := by
  rcases s.adapters_disconnected sock with same | ⟨id, session, found, same⟩
  · exact matched_of_adapters live same
  · exact matched_sinkSet live found .noop same

theorem matched_prune {source : σ} {s : WsServer B} (live : s.AllLive) (id : String)
    : src.Matched source s (s.pruneSession id) := by
  rcases s.adapters_pruneSession id with same | same
  · exact matched_of_adapters live same
  · exact matched_of_update live same (by simp) [.pruned id] (by simp [Machine.exec, happen])

theorem matched_refreshed {source : σ} {s : WsServer B} (live : s.AllLive) (id : String)
    (now : Int)
    : src.Matched source s (s.handle id (·.resendSnapshot (src.snapshot source) now)) := by
  refine matched_of_update live (WsServer.adapters_handle s id _) (fun b there => ?_)
    [.refreshed id now] (by simp [Machine.exec, happen, tell])
  obtain ⟨a, before, rfl⟩ := Option.map_eq_some_iff.mp there
  have on := live id a before
  simp [SessionAdapter.resendSnapshot, on, SessionAdapter.emitEnvelope]

/-- Calls of the server leave the client alone. -/
theorem exec_server (w : Viewed B) (events : List (WsEvent B))
    : Machine.exec Viewed.step w (events.map .server)
      = { w with server := Machine.exec WsServer.step w.server events } := by
  induction events generalizing w with
  | nil => rfl
  | cons event rest ih => exact ih _

/-- The adapters that are connected are those of the sessions, each once. -/
structure Connects (b : Served σ B) : Prop where
  live : b.viewed.server.AllLive
  once : b.connected.Nodup
  all : ∀ id, b.viewed.server.adapters id ≠ none → id ∈ b.connected

/-- Every signal reaches every session once. -/
theorem Connects.told (src : FeedSource σ ω B) {b : Served σ B} (connects : Connects b) (op : ω) (clock : Nat → Int)
    : (src.serve (.operate op clock) b).viewed.server.adapters
      = fun id => (b.viewed.server.adapters id).map fun a =>
          a.hear src.early clock (src.sends op b.source) := by
  simp only [serve, calls, exec_server]
  rw [WsServer.adapters_told connects.live src.early clock _ connects.once]
  funext id
  split
  · rfl
  · rename_i absent
    have none : b.viewed.server.adapters id = none :=
      by_contra fun some => absent (connects.all id some)
    rw [none, Option.map_none]

/-- Each event is one of the feed, or several, or none. -/
theorem Connects.matched (src : FeedSource σ ω B) {b : Served σ B} (connects : Connects b)
    (event : ServedEvent ω)
    : (src.serve event b).viewed.server.AllLive
      ∧ ∃ events, Machine.exec src.happen b.fed events = (src.serve event b).fed := by
  have live := connects.live
  have same : src.Matched b.source b.viewed.server b.viewed.server := matched_of_adapters live rfl
  cases event with
  | operate op clock =>
      have told := connects.told src op clock
      refine ⟨fun id a there => ?_, [.operate op clock], ?_⟩
      · rw [told] at there
        obtain ⟨before, found, rfl⟩ := Option.map_eq_some_iff.mp there
        exact WsServer.hear_subscribed (live id before found) _ _ _
      · simp only [Machine.exec, happen, Served.fed, told]
        rfl
  | refreshed id now => exact matched_refreshed live id now
  | newConnection => exact matched_of_adapters live rfl
  | firstBinary sock frame generated clock =>
      exact matched_firstBinary live sock frame generated clock
  | disconnected sock => exact matched_disconnected live sock
  | pruneTimeout id => exact matched_prune live id
  | connect =>
      simp only [serve, calls, next, Machine.exec, Viewed.step, Served.fed]
      split
      · exact matched_of_adapters (t := b.viewed.server.onNewConnection) live rfl
      · exact same
  | subscribe generated clock =>
      simp only [serve, calls, next, Machine.exec, Viewed.step, Served.fed]
      split
      · exact same
      · split
        · exact matched_firstBinary live _ (.subscribe _ _) generated clock
        · exact same
  | read =>
      simp only [serve, calls, next, Machine.exec, Viewed.step, Served.fed]
      split
      · exact same
      · split
        · exact same
        · exact same
  | lose => exact same

/-- An event makes a session only of a first frame. -/
theorem Connects.made {b : Served σ B} (connects : Connects b) {event : ServedEvent ω}
    {id : String} (new : b.viewed.server.adapters id = none)
    (made : (src.serve event b).viewed.server.adapters id ≠ none)
    : (framed event b.viewed.viewer).bind (src.serve event b).viewed.server.socketToSession
      = some id := by
  cases event with
  | operate op clock =>
      rw [connects.told src op clock] at made
      simp [new] at made
  | refreshed key now =>
      obtain ⟨_, _, _, call, _⟩ := WsServer.session_made new made
      cases call
  | newConnection => exact absurd new made
  | firstBinary sock frame generated clock =>
      obtain ⟨_, _, _, call, attached⟩ := WsServer.session_made new made
      cases call
      exact attached
  | disconnected sock =>
      obtain ⟨_, _, _, call, _⟩ := WsServer.session_made new made
      cases call
  | pruneTimeout key =>
      obtain ⟨_, _, _, call, _⟩ := WsServer.session_made new made
      cases call
  | connect =>
      simp only [serve, calls, Machine.exec, Viewed.step] at made
      split at made
      · exact absurd new made
      · exact absurd new made
  | subscribe generated clock =>
      simp only [serve, calls, Machine.exec, Viewed.step, framed] at made ⊢
      split at made
      · exact absurd new made
      · rename_i sock there
        split at made
        · rename_i waiting
          obtain ⟨_, _, _, call, attached⟩ := WsServer.session_made new made
          cases call
          simpa [there, waiting] using attached
        · exact absurd new made
  | read =>
      simp only [serve, calls, Machine.exec, Viewed.step] at made
      split at made
      · exact absurd new made
      · split at made
        · exact absurd new made
        · exact absurd new made
  | lose => exact absurd new made

theorem Connects.serve {b : Served σ B} (connects : Connects b) (event : ServedEvent ω)
    : Connects (src.serve event b) where
  live := (connects.matched src event).1
  once := by
    refine List.Nodup.filter _ (List.Nodup.append connects.once ?_ ?_)
    · exact List.Nodup.filter _ (Option.toList_nodup _)
    · intro id before made
      simp [before] at made
  all := by
    intro id there
    have isSome : ((src.serve event b).viewed.server.sessions id).isSome := by
      simpa [WsServer.adapters, Option.isSome_iff_ne_none] using there
    refine List.mem_filter.mpr ⟨?_, isSome⟩
    by_cases before : id ∈ b.connected
    · exact List.mem_append_left _ before
    · have new : b.viewed.server.adapters id = none :=
        by_contra fun some => before (connects.all id some)
      refine List.mem_append_right _ (List.mem_filter.mpr ⟨?_, by simpa using before⟩)
      exact Option.mem_toList.mpr (connects.made new there)

theorem connects_opening (s : σ) (id : String) : Connects (opening s id : Served σ B) where
  live := fun _ _ there => by cases there
  once := .nil
  all := fun _ there => absurd rfl there

/-- The source with its server and a client after some events. -/
abbrev Serves (src : FeedSource σ ω B) (s : σ) (id : String) : Served σ B → Prop :=
  Machine.Reaches src.serve src.Allowed (opening s id)

/-- A run of the whole is a run of the feed. -/
theorem fed_of_serves {s : σ} {id : String} {b : Served σ B} (served : src.Serves s id b)
    : Connects b ∧ src.Reaches s b.fed := by
  refine served.invariant (I := fun b => Connects b ∧ src.Reaches s b.fed)
    ⟨connects_opening s id, .start⟩ ?_
  intro b event _ h
  obtain ⟨-, events, same⟩ := h.1.matched src event
  exact ⟨h.1.serve event, same ▸ h.2.trans (Machine.reaches_exec (permits_all events b.fed))⟩
where
  permits_all (events : List (FeedEvent ω)) (f : Fed σ B)
      : Machine.Permits src.happen (fun _ _ => True) f events := by
    induction events generalizing f with
    | nil => trivial
    | cons event rest ih => exact ⟨trivial, ih _⟩

/-- A run of the whole is a run of the server and its client. -/
theorem viewed_of_serves {s : σ} {id : String} {b : Served σ B} (served : src.Serves s id b)
    : Machine.Reaches Viewed.step Viewed.Permitted (.start id) b.viewed :=
  served.invariant (I := fun b => Machine.Reaches Viewed.step Viewed.Permitted (.start id) b.viewed)
    .start fun _ _ allowed h => h.trans (Machine.reaches_exec allowed)

/-- Whoever shows a source while it stays connected shows it after any number of sockets, once the
client has read what came on the last one.
-/
theorem Followed.viewer_shows {receive : κ → B → κ} {blank : κ} {I : σ → Prop}
    {Shows : κ → σ → Prop} (followed : src.Followed receive blank I Shows) {s : σ} (initial : I s)
    {id : String} {b : Served σ B} (served : src.Serves s id b) {sock : Nat} {key : String}
    (there : b.viewed.viewer.sock = some sock)
    (attached : b.viewed.server.socketToSession sock = some key)
    (all : b.viewed.viewer.taken = (b.viewed.server.frames sock).length)
    : Shows (read receive blank (b.viewed.viewer.held.map (·.body))) b.source := by
  obtain ⟨connects, fed⟩ := fed_of_serves served
  obtain ⟨session, found, -, held⟩ :=
    Viewed.held_eq_history (viewed_of_serves served) there attached all
  have adapter : b.fed.sessions key = some session.adapter := by
    simp [Served.fed, WsServer.adapters, found]
  rw [held]
  exact (followed.shows initial fed).2 key session.adapter adapter (connects.live key _ adapter)

end FeedSource

end Scry
