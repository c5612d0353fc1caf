import Mathlib.Logic.Function.Basic
import Scry.Library.Machine
import Scry.Session.Adapter

/-! The session server: sockets that wait for their first `Subscribe`, sessions that outlive
their socket, and the callbacks that move them, which may come in any order.
-/

namespace Scry

/-- `WsServer::Session`. `pruneTimer` says whether the timer exists. -/
structure Session (B : Type) where
  adapter : SessionAdapter B
  liveSink : EnvelopeSink
  sock : Option Nat
  pruneTimer : Bool
  deriving DecidableEq

/-- The tables of `WsServer`. Sockets are known by the order they connected in; `frames` is
what has been sent on each.
-/
structure WsServer (B : Type) where
  nextSocket : Nat
  pending : Nat → Bool
  sessions : String → Option (Session B)
  socketToSession : Nat → Option String
  frames : Nat → List (Envelope B)

/-- The first binary frame of a socket. -/
inductive ClientFrame
  | malformed
  | other
  | subscribe (sessionId : String) (lastSeq : Nat)

/-- What a fresh session brings: the ids `generateSessionId` answers in turn, what its
adapter buffers before it is subscribed, the bodies of its first envelopes, and the clock.
-/
structure FreshSession (B : Type) where
  generated : List String
  early : List B
  snapshot : B
  initial : List B
  clock : Nat → Int

/-- The callbacks. A prune timer may fire for any session at any time. -/
inductive WsEvent (B : Type)
  | newConnection
  | firstBinary (sock : Nat) (frame : ClientFrame) (fresh : FreshSession B)
  | signal (id : String) (body : B) (now : Int)
  | snapshotSignal (id : String) (snapshot : B) (now : Int)
  | disconnected (sock : Nat)
  | pruneTimeout (id : String)

namespace WsServer

variable {B : Type}

/-- The server before the first connection. -/
def start : WsServer B :=
  { nextSocket := 0
    pending := fun _ => false
    sessions := fun _ => none
    socketToSession := fun _ => none
    frames := fun _ => [] }

/-- What a sink does with the envelopes it is given. -/
def deliver (s : WsServer B) (sink : EnvelopeSink) (envs : List (Envelope B)) : WsServer B :=
  match sink with
  | .noop => s
  | .webSocket sock =>
      { s with frames := Function.update s.frames sock (s.frames sock ++ envs) }

def setSession (s : WsServer B) (id : String) (session : Option (Session B)) : WsServer B :=
  { s with sessions := Function.update s.sessions id session }

/-- A signal reaches the adapter of a session, and its sink gets what the adapter sends. -/
def handle (s : WsServer B) (id : String)
    (slot : SessionAdapter B → SessionAdapter B × List (Envelope B))
    : WsServer B :=
  match s.sessions id with
  | none => s
  | some session =>
      let (adapter, sent) := slot session.adapter
      (s.setSession id (some { session with adapter })).deliver adapter.sink sent

/-- `onNewConnection`, for one connection. -/
def onNewConnection (s : WsServer B) : WsServer B :=
  { s with
    nextSocket := s.nextSocket + 1
    pending := Function.update s.pending s.nextSocket true }

/-- `attachNewSession`. -/
def attachNewSession (s : WsServer B) (sock : Nat) (id : String) : WsServer B :=
  let session : Session B :=
    { adapter := .fresh (.webSocket sock) id
      liveSink := .webSocket sock
      sock := some sock
      pruneTimer := false }
  { s.setSession id (some session) with
    socketToSession := Function.update s.socketToSession sock (some id) }

/-- `resumeSession`. -/
def resumeSession (s : WsServer B) (id : String) (session : Session B) (sock : Nat)
    (lastSeq : Nat)
    : WsServer B :=
  let adapter := { session.adapter with sink := .webSocket sock }
  let resumed := { adapter, liveSink := .webSocket sock, sock := some sock, pruneTimer := false }
  { s.setSession id (some resumed) with
    socketToSession :=
      Function.update s.socketToSession sock (some session.adapter.sessionId) }.deliver
    (.webSocket sock) (adapter.replaySince lastSeq)

/-- The id of a fresh session: the client's, if it names one, and then generated ones, until
one is not taken.
-/
def freshId (s : WsServer B) (clientSessionId : String) (generated : List String)
    : Option String :=
  let candidates := if clientSessionId = "" then generated else clientSessionId :: generated
  candidates.find? fun id => (s.sessions id).isNone

/-- The rest of `onPendingFirstBinary` for a fresh session. Where every id drawn so far is
taken, the loop is still drawing and nothing has happened yet.
-/
def openSession (s : WsServer B) (sock : Nat) (clientSessionId : String)
    (fresh : FreshSession B)
    : WsServer B :=
  match s.freshId clientSessionId fresh.generated with
  | none => s
  | some id =>
      let attached :=
        { s with pending := Function.update s.pending sock false }.attachNewSession sock id
      let buffering := attached.handle id fun a => ({ a with buffered := fresh.early }, [])
      buffering.handle id fun a => a.startStreaming fresh.snapshot fresh.initial fresh.clock

/-- `onPendingFirstBinary`. A refused socket is closed, which comes back as `disconnected`. -/
def onPendingFirstBinary (s : WsServer B) (sock : Nat) (frame : ClientFrame)
    (fresh : FreshSession B)
    : WsServer B :=
  if s.pending sock then
    match frame with
    | .malformed => s
    | .other => s
    | .subscribe clientSessionId lastSeq =>
        match s.sessions clientSessionId with
        | some session =>
            if clientSessionId ≠ "" ∧ session.sock = none then
              { s with pending := Function.update s.pending sock false }.resumeSession
                clientSessionId session sock lastSeq
            else s.openSession sock clientSessionId fresh
        | none => s.openSession sock clientSessionId fresh
  else s

/-- `onSocketDisconnected`. -/
def onSocketDisconnected (s : WsServer B) (sock : Nat) : WsServer B :=
  if s.pending sock then { s with pending := Function.update s.pending sock false }
  else
    match s.socketToSession sock with
    | none => s
    | some id =>
        let unmapped :=
          { s with socketToSession := Function.update s.socketToSession sock none }
        match s.sessions id with
        | none => unmapped
        | some session =>
            unmapped.setSession id (some {
              adapter := { session.adapter with sink := .noop }
              liveSink := .noop
              sock := none
              pruneTimer := true
            })

/-- `pruneSession`. -/
def pruneSession (s : WsServer B) (id : String) : WsServer B :=
  match s.sessions id with
  | none => s
  | some session => if session.sock ≠ none then s else s.setSession id none

/-- One callback. -/
def step (event : WsEvent B) (s : WsServer B) : WsServer B :=
  match event with
  | .newConnection => s.onNewConnection
  | .firstBinary sock frame fresh => s.onPendingFirstBinary sock frame fresh
  | .signal id body now => s.handle id (·.sendOrBuffer body now)
  | .snapshotSignal id snapshot now => s.handle id (·.resendSnapshot snapshot now)
  | .disconnected sock => s.onSocketDisconnected sock
  | .pruneTimeout id => s.pruneSession id

end WsServer

end Scry
