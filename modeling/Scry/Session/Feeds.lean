import Mathlib.Logic.Function.Basic
import Scry.Library.Machine
import Scry.Session.Adapter

/-! What the sessions of a daemon are fed from.
A source changes by one operation after another, and each makes the adapters send some bodies. A
client reads the bodies of its session in turn. If whoever shows the source goes on to show it,
then every client that has subscribed shows it in every state of every run, whenever it
subscribed and whatever became of its socket in between.
-/

namespace Scry

namespace SessionAdapter

variable {B : Type}

/-- The bodies a session has emitted. -/
def bodies (a : SessionAdapter B) : List B := a.history.map (·.body)

/-- A session that has subscribed is live and holds nothing back; one that has not has emitted
nothing.
-/
structure Settled (early : B → Bool) (a : SessionAdapter B) : Prop where
  live : a.liveTailing = a.subscribed
  drained : a.subscribed = true → a.buffered = []
  silent : a.subscribed = false → a.history = []
  early : ∀ body ∈ a.buffered, early body = true
  resumable : a.Resumable

theorem settled_fresh (early : B → Bool) (sink : EnvelopeSink) (sessionId : String)
    : (fresh sink sessionId : SessionAdapter B).Settled early where
  live := rfl
  drained := fun _ => rfl
  silent := fun _ => rfl
  early := by simp [fresh]
  resumable := resumable_fresh sink sessionId

/-- A signal reaches the adapters that are connected to it: those that have subscribed, and to
some signals all of them.
-/
def hear (early : B → Bool) (clock : Nat → Int) (a : SessionAdapter B)
    : List B → SessionAdapter B
  | [] => a
  | body :: rest =>
      let next := if a.subscribed || early body then (a.sendOrBuffer body (clock 0)).1 else a
      next.hear early (fun n => clock (n + 1)) rest

/-- A `Subscribe`, which only starts the stream once. -/
def subscribe (a : SessionAdapter B) (snapshot : B) (initial : List B) (clock : Nat → Int)
    : SessionAdapter B :=
  if a.subscribed then a else (a.startStreaming snapshot initial clock).1

-----------------------------------------------------------------------------------------
-- What is emitted
-----------------------------------------------------------------------------------------

theorem emitAll_spec (a : SessionAdapter B) (clock : Nat → Int) (sent : List B)
    : (a.emitAll clock sent).1.bodies = a.bodies ++ sent
      ∧ (a.emitAll clock sent).1.subscribed = a.subscribed
      ∧ (a.emitAll clock sent).1.liveTailing = a.liveTailing
      ∧ (a.emitAll clock sent).1.buffered = a.buffered := by
  induction sent generalizing a clock with
  | nil => simp [emitAll]
  | cons body rest ih =>
      obtain ⟨later, subscribed, live, buffered⟩ :=
        ih (a.emitEnvelope body (clock 0)).1 (fun n => clock (n + 1))
      refine ⟨later.trans ?_, subscribed, live, buffered⟩
      simp [bodies, emitEnvelope]

/-- Subscribing emits the snapshot, then what was held back, then the other first bodies. -/
theorem bodies_subscribe {early : B → Bool} {a : SessionAdapter B} (settled : a.Settled early)
    (new : a.subscribed = false) (snapshot : B) (initial : List B) (clock : Nat → Int)
    : (a.subscribe snapshot initial clock).bodies = snapshot :: (a.buffered ++ initial) := by
  have first := emitAll_spec ({ a with subscribed := true }.emitEnvelope snapshot (clock 0)).1
    (fun n => clock (n + 1)) (a.buffered ++ initial)
  have nothing := settled.silent new
  simp only [subscribe, new, startStreaming]
  refine first.1.trans ?_
  simp [bodies, emitEnvelope, nothing]

theorem settled_subscribe {early : B → Bool} {a : SessionAdapter B} (settled : a.Settled early)
    (snapshot : B) (initial : List B) (clock : Nat → Int)
    : (a.subscribe snapshot initial clock).Settled early
      ∧ (a.subscribe snapshot initial clock).subscribed = true := by
  cases subscribed : a.subscribed with
  | true => simpa [subscribe, subscribed] using settled
  | false =>
      have all := emitAll_spec ({ a with subscribed := true }.emitEnvelope snapshot (clock 0)).1
        (fun n => clock (n + 1)) (a.buffered ++ initial)
      have streaming : (a.subscribe snapshot initial clock).subscribed = true := by
        simp only [subscribe, subscribed, Bool.false_eq_true, if_false]
        exact all.2.1
      refine ⟨⟨?_, fun _ => ?_, fun off => ?_, fun body held => ?_, ?_⟩, streaming⟩
      · rw [streaming]
        simp [subscribe, subscribed, startStreaming]
      · simp [subscribe, subscribed, startStreaming]
      · rw [streaming] at off
        cases off
      · simp [subscribe, subscribed, startStreaming] at held
      · simpa [subscribe, subscribed]
          using (a.emits_startStreaming snapshot initial clock).resumable settled.resumable

/-- One body that a settled adapter hears. -/
theorem settled_sendOrBuffer {early : B → Bool} {a : SessionAdapter B}
    (settled : a.Settled early) {body : B} (connected : a.subscribed = true ∨ early body = true)
    (now : Int)
    : (a.sendOrBuffer body now).1.Settled early
      ∧ (a.sendOrBuffer body now).1.subscribed = a.subscribed
      ∧ (a.subscribed = true → (a.sendOrBuffer body now).1.bodies = a.bodies ++ [body]) := by
  have resumable := (a.emits_sendOrBuffer body now).resumable settled.resumable
  cases subscribed : a.subscribed with
  | true =>
      have live : a.liveTailing = true := settled.live.trans subscribed
      simp only [sendOrBuffer, live, if_true] at resumable ⊢
      refine ⟨⟨settled.live, fun _ => settled.drained subscribed, fun off => ?_, settled.early,
        resumable⟩, subscribed, fun _ => ?_⟩
      · exact absurd (subscribed.symm.trans off) (by simp)
      · simp [bodies, emitEnvelope]
  | false =>
      have idle : a.liveTailing = false := settled.live.trans subscribed
      have isEarly : early body = true := by simpa [subscribed] using connected
      simp only [sendOrBuffer, idle, Bool.false_eq_true, if_false] at resumable ⊢
      refine ⟨⟨subscribed.symm, fun on => ?_, settled.silent, fun other held => ?_, resumable⟩,
        subscribed, fun on => on.elim⟩
      · exact absurd (subscribed.symm.trans on) (by simp)
      · rcases List.mem_append.mp held with old | last
        · exact settled.early other old
        · rw [List.mem_singleton.mp last]
          exact isEarly

/-- A settled adapter stays settled, and one that has subscribed emits all that it hears, by
induction on the bodies.
-/
theorem hear_spec {early : B → Bool} {a : SessionAdapter B} (settled : a.Settled early)
    (clock : Nat → Int) (sent : List B)
    : (a.hear early clock sent).Settled early
      ∧ (a.hear early clock sent).subscribed = a.subscribed
      ∧ (a.subscribed = true → (a.hear early clock sent).bodies = a.bodies ++ sent) := by
  induction sent generalizing a clock with
  | nil => exact ⟨settled, rfl, fun _ => (List.append_nil _).symm⟩
  | cons body rest ih =>
      rw [hear]
      split
      · rename_i connected
        obtain ⟨next, same, emitted⟩ := settled_sendOrBuffer settled
          (by simpa [Bool.or_eq_true] using connected) (clock 0)
        obtain ⟨last, kept, later⟩ := ih next (fun n => clock (n + 1))
        refine ⟨last, kept.trans same, fun on => ?_⟩
        rw [later (same.trans on), emitted on, List.append_assoc, List.singleton_append]
      · rename_i unconnected
        obtain ⟨last, kept, _⟩ := ih settled (fun n => clock (n + 1))
        refine ⟨last, kept, fun on => ?_⟩
        simp [on] at unconnected

theorem settled_resendSnapshot {early : B → Bool} {a : SessionAdapter B}
    (settled : a.Settled early) (snapshot : B) (now : Int)
    : (a.resendSnapshot snapshot now).1.Settled early
      ∧ (a.resendSnapshot snapshot now).1.subscribed = a.subscribed
      ∧ (a.subscribed = true →
          (a.resendSnapshot snapshot now).1.bodies = a.bodies ++ [snapshot]) := by
  have resumable := (a.emits_resendSnapshot snapshot now).resumable settled.resumable
  cases subscribed : a.subscribed with
  | true =>
      simp only [resendSnapshot, subscribed, if_true] at resumable ⊢
      refine ⟨⟨settled.live, fun _ => settled.drained subscribed, fun off => ?_, settled.early,
        resumable⟩, subscribed, fun _ => ?_⟩
      · exact absurd (subscribed.symm.trans off) (by simp)
      · simp [bodies, emitEnvelope]
  | false =>
      simp [resendSnapshot, subscribed, settled]

end SessionAdapter

-----------------------------------------------------------------------------------------
-- Sources and their sessions
-----------------------------------------------------------------------------------------

/-- What adapters are fed from: what an operation does, the bodies that its signals make them
send, which of these reach the adapters that have not subscribed, and what a `Subscribe` sends
first.
-/
structure FeedSource (σ ω B : Type) where
  step : ω → σ → σ
  sends : ω → σ → List B
  early : B → Bool
  snapshot : σ → B
  initial : σ → List B

/-- A source with the adapters of its sessions by their ids. -/
structure Fed (σ B : Type) where
  source : σ
  sessions : String → Option (SessionAdapter B)

/-- What can happen: an operation of the source, a new session, a `Subscribe`, a slot that sends
a snapshot again, a socket that goes or comes, and a session that is pruned.
-/
inductive FeedEvent (ω : Type)
  | operate (op : ω) (clock : Nat → Int)
  | opened (id : String) (sink : EnvelopeSink)
  | subscribed (id : String) (clock : Nat → Int)
  | refreshed (id : String) (now : Int)
  | sinkSet (id : String) (sink : EnvelopeSink)
  | pruned (id : String)

namespace FeedSource

variable {σ ω B κ : Type} (src : FeedSource σ ω B)

/-- Nothing has been opened yet. -/
def start (s : σ) : Fed σ B := { source := s, sessions := fun _ => none }

/-- One session's adapter replaced by what a slot makes of it. -/
def tell (f : Fed σ B) (id : String) (slot : SessionAdapter B → SessionAdapter B) : Fed σ B :=
  { f with sessions := Function.update f.sessions id ((f.sessions id).map slot) }

/-- One event. -/
def happen (event : FeedEvent ω) (f : Fed σ B) : Fed σ B :=
  match event with
  | .operate op clock =>
      { source := src.step op f.source
        sessions := fun id =>
          (f.sessions id).map fun a => a.hear src.early clock (src.sends op f.source) }
  | .opened id sink =>
      { f with
        sessions :=
          Function.update f.sessions id (some ((f.sessions id).getD (.fresh sink id))) }
  | .subscribed id clock =>
      tell f id fun a => a.subscribe (src.snapshot f.source) (src.initial f.source) clock
  | .refreshed id now => tell f id fun a => (a.resendSnapshot (src.snapshot f.source) now).1
  | .sinkSet id sink => tell f id fun a => { a with sink }
  | .pruned id => { f with sessions := Function.update f.sessions id none }

/-- The source with its sessions after some events. -/
abbrev Reaches (s : σ) : Fed σ B → Prop :=
  Machine.Reaches src.happen (fun _ _ => True) (start s)

/-- Every session is settled. -/
def AllSettled (f : Fed σ B) : Prop :=
  ∀ id a, f.sessions id = some a → a.Settled src.early

/-- A property of settled adapters that a slot keeps for its session. -/
theorem tell_sessions {P : SessionAdapter B → Prop} {f : Fed σ B} {id : String}
    {slot : SessionAdapter B → SessionAdapter B} (holds : ∀ id a, f.sessions id = some a → P a)
    (keeps : ∀ a, f.sessions id = some a → P a → P (slot a)) (other : String)
    (b : SessionAdapter B) (found : (tell f id slot).sessions other = some b)
    : P b := by
  by_cases same : other = id
  · subst same
    simp only [tell, Function.update_self, Option.map_eq_some_iff] at found
    obtain ⟨a, there, rfl⟩ := found
    exact keeps a there (holds _ _ there)
  · simp only [tell, Function.update_of_ne same] at found
    exact holds _ _ found

theorem AllSettled.happen {f : Fed σ B} (settled : src.AllSettled f) (event : FeedEvent ω)
    : src.AllSettled (src.happen event f) := by
  cases event with
  | operate op clock =>
      intro id b found
      obtain ⟨a, there, rfl⟩ := Option.map_eq_some_iff.mp found
      exact (SessionAdapter.hear_spec (settled id a there) clock _).1
  | opened id sink =>
      intro other b found
      by_cases same : other = id
      · subst same
        simp only [FeedSource.happen, Function.update_self, Option.some.injEq] at found
        subst found
        cases there : f.sessions other with
        | none => exact SessionAdapter.settled_fresh _ _ _
        | some a => exact settled other a there
      · simp only [FeedSource.happen, Function.update_of_ne same] at found
        exact settled other b found
  | subscribed id clock =>
      exact tell_sessions settled fun a _ ok => (a.settled_subscribe ok _ _ clock).1
  | refreshed id now =>
      exact tell_sessions settled fun a _ ok => (a.settled_resendSnapshot ok _ now).1
  | sinkSet id sink =>
      exact tell_sessions settled fun a _ ok =>
        have r := ok.resumable
        ⟨ok.live, ok.drained, ok.silent, ok.early, r.numbered, r.latest, r.capped, r.kept⟩
  | pruned id =>
      intro other b found
      by_cases same : other = id
      · subst same
        simp [FeedSource.happen] at found
      · simp only [FeedSource.happen, Function.update_of_ne same] at found
        exact settled other b found

theorem allSettled_start (s : σ) : src.AllSettled (start s) :=
  fun _ _ found => absurd found (by simp [start])

-----------------------------------------------------------------------------------------
-- Clients that show the source
-----------------------------------------------------------------------------------------

/-- What a client comes to that reads some bodies. -/
def read (receive : κ → B → κ) (k : κ) (sent : List B) : κ := sent.foldl receive k

theorem read_append (receive : κ → B → κ) (k : κ) (first later : List B)
    : read receive k (first ++ later) = read receive (read receive k first) later :=
  List.foldl_append

/-- A client can follow a source with some invariant: the first bodies show it, whatever was held
back before them; whoever shows it before an operation shows it after what the operation sends;
and another snapshot does no harm.
-/
structure Followed (receive : κ → B → κ) (blank : κ) (I : σ → Prop) (Shows : κ → σ → Prop)
    : Prop where
  keeps : ∀ s op, I s → I (src.step op s)
  greets : ∀ s waiting, I s → (∀ body ∈ waiting, src.early body = true) →
    Shows (read receive blank (src.snapshot s :: (waiting ++ src.initial s))) s
  follows : ∀ s op k, I s → Shows k s → Shows (read receive k (src.sends op s)) (src.step op s)
  refreshes : ∀ s k, I s → Shows k s → Shows (receive k (src.snapshot s)) s

/-- Every session that has subscribed shows the source. -/
def AllShow (receive : κ → B → κ) (blank : κ) (Shows : κ → σ → Prop) (f : Fed σ B) : Prop :=
  ∀ id a, f.sessions id = some a → a.subscribed = true →
    Shows (read receive blank a.bodies) f.source

variable {src} {receive : κ → B → κ} {blank : κ} {I : σ → Prop} {Shows : κ → σ → Prop}

/-- Each event keeps every client up to date. -/
theorem Followed.happen (followed : src.Followed receive blank I Shows) {f : Fed σ B}
    (holds : I f.source) (settled : src.AllSettled f) (shows : AllShow receive blank Shows f)
    (event : FeedEvent ω)
    : AllShow receive blank Shows (src.happen event f) := by
  cases event with
  | operate op clock =>
      intro id b found on
      obtain ⟨a, there, rfl⟩ := Option.map_eq_some_iff.mp found
      obtain ⟨_, same, emitted⟩ := SessionAdapter.hear_spec (settled id a there) clock
        (src.sends op f.source)
      rw [emitted (same.symm.trans on), read_append]
      exact followed.follows f.source op _ holds (shows id a there (same.symm.trans on))
  | opened id sink =>
      intro other b found on
      by_cases same : other = id
      · subst same
        simp only [FeedSource.happen, Function.update_self, Option.some.injEq] at found
        subst found
        cases there : f.sessions other with
        | none => simp [there, SessionAdapter.fresh] at on
        | some a => exact shows other a there (by simpa [there] using on)
      · simp only [FeedSource.happen, Function.update_of_ne same] at found
        exact shows other b found on
  | subscribed id clock =>
      refine tell_sessions (P := fun a => a.subscribed = true →
        Shows (read receive blank a.bodies) f.source) shows fun a there ok _ => ?_
      cases subscribed : a.subscribed with
      | true => simpa [SessionAdapter.subscribe, subscribed] using ok subscribed
      | false =>
          have whole := settled id a there
          rw [SessionAdapter.bodies_subscribe whole subscribed]
          exact followed.greets f.source a.buffered holds whole.early
  | refreshed id now =>
      refine tell_sessions (P := fun a => a.subscribed = true →
        Shows (read receive blank a.bodies) f.source) shows fun a there ok on => ?_
      obtain ⟨_, same, emitted⟩ := SessionAdapter.settled_resendSnapshot (settled id a there)
        (src.snapshot f.source) now
      rw [emitted (same.symm.trans on), read_append]
      exact followed.refreshes f.source _ holds (ok (same.symm.trans on))
  | sinkSet id sink =>
      exact tell_sessions (P := fun a => a.subscribed = true →
        Shows (read receive blank a.bodies) f.source) shows fun _ _ ok => ok
  | pruned id =>
      intro other b found on
      by_cases same : other = id
      · subst same
        simp [FeedSource.happen] at found
      · simp only [FeedSource.happen, Function.update_of_ne same] at found
        exact shows other b found on

/-- In every state of every run, each client that has subscribed shows the source. -/
theorem Followed.shows (followed : src.Followed receive blank I Shows) {s : σ} (initial : I s)
    {f : Fed σ B} (reached : src.Reaches s f)
    : I f.source ∧ AllShow receive blank Shows f := by
  have all : I f.source ∧ src.AllSettled f ∧ AllShow receive blank Shows f := by
    refine reached.invariant (I := fun f => I f.source ∧ src.AllSettled f
      ∧ AllShow receive blank Shows f) ⟨initial, allSettled_start src s, ?_⟩ ?_
    · exact fun _ _ found => absurd found (by simp [start])
    · intro f event _ all
      obtain ⟨holds, settled, shows⟩ := all
      refine ⟨?_, settled.happen src event, followed.happen holds settled shows event⟩
      cases event with
      | operate op clock => exact followed.keeps f.source op holds
      | opened | subscribed | refreshed | sinkSet | pruned => exact holds
  exact ⟨all.1, all.2.2⟩

-----------------------------------------------------------------------------------------
-- What a session emits over a run
-----------------------------------------------------------------------------------------

variable (src)

/-- What an event makes a session emit that has subscribed. -/
def emitted (id : String) (event : FeedEvent ω) (f : Fed σ B) : List B :=
  match event with
  | .operate op _ => src.sends op f.source
  | .refreshed other _ => if other = id then [src.snapshot f.source] else []
  | _ => []

/-- What a list of events makes a session emit. -/
def emittedOver (id : String) (f : Fed σ B) : List (FeedEvent ω) → List B
  | [] => []
  | event :: rest => src.emitted id event f ++ emittedOver id (src.happen event f) rest

/-- A session that has subscribed and is not pruned emits what an event makes it emit. -/
theorem emits_happen {f : Fed σ B} (settled : src.AllSettled f) {id : String}
    {a : SessionAdapter B} (there : f.sessions id = some a) (on : a.subscribed = true)
    (event : FeedEvent ω) (kept : ∀ other, event = .pruned other → other ≠ id)
    : ∃ b, (src.happen event f).sessions id = some b ∧ b.subscribed = true
        ∧ b.bodies = a.bodies ++ src.emitted id event f := by
  have nothing : a.bodies = a.bodies ++ [] := (List.append_nil _).symm
  cases event with
  | operate op clock =>
      obtain ⟨_, same, sent⟩ := SessionAdapter.hear_spec (settled id a there) clock
        (src.sends op f.source)
      exact ⟨_, by simp [FeedSource.happen, there], same.trans on, sent on⟩
  | opened other sink =>
      refine ⟨a, ?_, on, nothing⟩
      by_cases same : id = other
      · subst same
        simp [FeedSource.happen, there]
      · simpa [FeedSource.happen, Function.update_of_ne same] using there
  | subscribed other clock =>
      refine ⟨a, ?_, on, nothing⟩
      by_cases same : id = other
      · subst same
        simp [FeedSource.happen, tell, there, SessionAdapter.subscribe, on]
      · simpa [FeedSource.happen, tell, Function.update_of_ne same] using there
  | refreshed other now =>
      by_cases same : other = id
      · subst same
        obtain ⟨_, kept, sent⟩ := SessionAdapter.settled_resendSnapshot (settled other a there)
          (src.snapshot f.source) now
        refine ⟨_, by simp [FeedSource.happen, tell, there], kept.trans on, ?_⟩
        simpa [emitted] using sent on
      · refine ⟨a, ?_, on, by simp [emitted, same]⟩
        simpa [FeedSource.happen, tell, Function.update_of_ne (Ne.symm same)] using there
  | sinkSet other sink =>
      by_cases same : id = other
      · subst same
        exact ⟨{ a with sink }, by simp [FeedSource.happen, tell, there], on, nothing⟩
      · refine ⟨a, ?_, on, nothing⟩
        simpa [FeedSource.happen, tell, Function.update_of_ne same] using there
  | pruned other =>
      refine ⟨a, ?_, on, nothing⟩
      simpa [FeedSource.happen, Function.update_of_ne (kept other rfl).symm] using there

/-- From its `Subscribe` on a session emits the snapshot, what it held back, the other first
bodies, and then what each event makes it emit, each once and in order, by induction on the run.
-/
theorem emits_over {f : Fed σ B} (settled : src.AllSettled f) {id : String}
    {a : SessionAdapter B} (there : f.sessions id = some a) (on : a.subscribed = true)
    (events : List (FeedEvent ω)) (kept : ∀ event ∈ events, event ≠ .pruned id)
    : ∃ b, (Machine.exec src.happen f events).sessions id = some b ∧ b.subscribed = true
        ∧ b.bodies = a.bodies ++ src.emittedOver id f events := by
  induction events generalizing f a with
  | nil => exact ⟨a, there, on, (List.append_nil _).symm⟩
  | cons event rest ih =>
      obtain ⟨first, others⟩ := List.forall_mem_cons.mp kept
      obtain ⟨b, found, next, sent⟩ := src.emits_happen settled there on event
        fun other named same => first (named.trans (congrArg _ same))
      obtain ⟨c, last, still, later⟩ := ih (settled.happen src event) found next others
      refine ⟨c, last, still, later.trans ?_⟩
      rw [sent, List.append_assoc, emittedOver]

theorem allSettled_exec {f : Fed σ B} (settled : src.AllSettled f) (events : List (FeedEvent ω))
    : src.AllSettled (Machine.exec src.happen f events) :=
  Machine.exec_invariant settled (fun _ event ok => ok.happen src event) events

/-- A counter that tells its value: to the sessions that have subscribed if it is odd, and to all
if it is even.
-/
def counter : FeedSource Nat Nat Nat where
  step op s := s + op
  sends op s := [s + op]
  early body := body % 2 == 0
  snapshot s := s
  initial _ := []

end FeedSource

end Scry
