import Mathlib.Data.List.Forall2
import Scry.Library.Records
import Scry.Session.Feeds
import Scry.Wire.Bytes

/-! What is recorded of a session to compare it with later runs. The envelopes are written to a
file as they are emitted, without the times at which they were: two runs that differ in their
clocks write the same bytes, and of a file that was cut off the envelopes before the cut are read.
-/

namespace Scry

variable {P : Type}

-----------------------------------------------------------------------------------------
-- The file and its reader
-----------------------------------------------------------------------------------------

/-- What the sink looks at of the payload of a `seq::v1::Envelope`: the capture times of two of
its kinds.
-/
inductive EnvelopePayload (P : Type)
  | buffs (capturedMs : UInt64) (update : P)
  | spawnEffects (capturedMs : UInt64) (update : P)
  | other (payload : P)
  deriving DecidableEq

def EnvelopePayload.scrubbed : EnvelopePayload P → EnvelopePayload P
  | buffs _ update => buffs 0 update
  | spawnEffects _ update => spawnEffects 0 update
  | other payload => other payload

def Envelope.scrubbed (env : Envelope (EnvelopePayload P)) : Envelope (EnvelopePayload P) :=
  { env with serverTsMs := 0, body := env.body.scrubbed }

/-- `FileSink`: what its file has in it, if it could be opened. -/
structure FileSink where
  file : Option Bytes
  deriving DecidableEq

namespace FileSink

/-- The constructor, which truncates the file. -/
def create (opens : Bool) : FileSink := { file := if opens then some [] else none }

def isOpen (s : FileSink) : Bool := s.file.isSome

/-- `send`, over what `SerializeToArray` writes. -/
def send (serialize : Envelope (EnvelopePayload P) → Bytes) (s : FileSink)
    (env : Envelope (EnvelopePayload P))
    : FileSink :=
  { file := s.file.map fun file =>
      let bytes := serialize env.scrubbed
      let len := bytes.length % 4294967296
      file ++ [UInt8.ofNat len, UInt8.ofNat (len >>> 8), UInt8.ofNat (len >>> 16),
        UInt8.ofNat (len >>> 24)] ++ bytes }

end FileSink

/-- The loop of `iter_records`, from an offset on. -/
def iterRecordsFrom (data : Bytes) : Nat → Nat → Nat → List (Nat × Nat × Nat)
  | 0, _, _ => []
  | fuel + 1, i, idx =>
      if i + 4 ≤ data.length then
        let size := (byteAt data i).toNat ||| (byteAt data (i + 1)).toNat <<< 8
          ||| (byteAt data (i + 2)).toNat <<< 16 ||| (byteAt data (i + 3)).toNat <<< 24
        if i + 4 + size > data.length then []
        else (idx, i + 4, i + 4 + size) :: iterRecordsFrom data fuel (i + 4 + size) (idx + 1)
      else []

/-- `iter_records`: index, start and end of each record. A record takes at least four bytes, so
that there are fewer of them than bytes.
-/
def iterRecords (data : Bytes) : List (Nat × Nat × Nat) :=
  iterRecordsFrom data data.length 0 0

/-- What the callers of `iter_records` read of a file. -/
def recordsIn (data : Bytes) : List Bytes :=
  (iterRecords data).map fun (_, start, stop) => (data.take stop).drop start

/-- The bytes of an envelope as they are recorded. -/
def recordBytes (serialize : Envelope (EnvelopePayload P) → Bytes)
    (env : Envelope (EnvelopePayload P))
    : Bytes :=
  serialize env.scrubbed

/-- The sink writes records. -/
theorem FileSink.foldl_send (serialize : Envelope (EnvelopePayload P) → Bytes) (file : Bytes)
    (envs : List (Envelope (EnvelopePayload P)))
    : envs.foldl (send serialize) { file := some file }
      = { file := some (file ++ Records.file 4 (envs.map (recordBytes serialize))) } := by
  induction envs generalizing file with
  | nil => simp [Records.file]
  | cons env rest ih =>
      have size (n : Nat)
          : [UInt8.ofNat (n % 4294967296), UInt8.ofNat ((n % 4294967296) >>> 8),
              UInt8.ofNat ((n % 4294967296) >>> 16), UInt8.ofNat ((n % 4294967296) >>> 24)]
            = LittleEndian.encode 4 n := by
        simp only [LittleEndian.encode, Nat.shiftRight_eq_div_pow, List.cons.injEq, and_true,
          ← UInt8.toNat_inj, UInt8.toNat_ofNat']
        omega
      simp only [List.foldl_cons, send, Option.map_some, size, ih]
      simp [Records.file, Records.frame, recordBytes]

/-- Four bytes that are put together bit by bit. -/
theorem size_eq_decode (a b c d : UInt8)
    : a.toNat ||| b.toNat <<< 8 ||| c.toNat <<< 16 ||| d.toNat <<< 24
      = LittleEndian.decode [a, b, c, d] := by
  have first := a.toNat_lt
  have second := b.toNat_lt
  have third := c.toNat_lt
  have two : a.toNat ||| b.toNat <<< 8 = b.toNat <<< 8 + a.toNat := by
    rw [Nat.or_comm, ← Nat.shiftLeft_add_eq_or_of_lt first]
  have three : b.toNat <<< 8 + a.toNat ||| c.toNat <<< 16
      = c.toNat <<< 16 + (b.toNat <<< 8 + a.toNat) := by
    rw [Nat.or_comm, ← Nat.shiftLeft_add_eq_or_of_lt (by rw [Nat.shiftLeft_eq]; omega)]
  have four : c.toNat <<< 16 + (b.toNat <<< 8 + a.toNat) ||| d.toNat <<< 24
      = d.toNat <<< 24 + (c.toNat <<< 16 + (b.toNat <<< 8 + a.toNat)) := by
    rw [Nat.or_comm,
      ← Nat.shiftLeft_add_eq_or_of_lt (by rw [Nat.shiftLeft_eq, Nat.shiftLeft_eq]; omega)]
  rw [two, three, four]
  simp only [Nat.shiftLeft_eq, LittleEndian.decode]
  omega

theorem take_four {data : Bytes} {i : Nat} (inside : i + 4 ≤ data.length)
    : (data.drop i).take 4
      = [byteAt data i, byteAt data (i + 1), byteAt data (i + 2), byteAt data (i + 3)] := by
  have behind (j : Nat) : byteAt data (i + j) = byteAt (data.drop i) j := by
    simp [byteAt, List.getD_eq_getElem?_getD, List.getElem?_drop]
  have long : 4 ≤ (data.drop i).length := by
    rw [List.length_drop]
    omega
  rw [behind 1, behind 2, behind 3, show byteAt data i = byteAt (data.drop i) 0 from behind 0]
  generalize data.drop i = rest at long
  obtain _ | ⟨a, _ | ⟨b, _ | ⟨c, _ | ⟨d, rest⟩⟩⟩⟩ := rest
  case cons.cons.cons.cons => rfl
  all_goals simp at long

/-- The loop finds what a reader of records finds in the bytes that are left. -/
theorem iterRecordsFrom_eq (data : Bytes) (fuel i idx : Nat)
    : (iterRecordsFrom data fuel i idx).map (fun (_, start, stop) => (data.take stop).drop start)
      = Records.read 4 fuel (data.drop i) := by
  induction fuel generalizing i idx with
  | zero => rfl
  | succ fuel ih =>
      rw [iterRecordsFrom]
      split
      · rename_i inside
        simp only [Records.read, take_four inside, size_eq_decode]
        generalize LittleEndian.decode _ = size
        have both : (data.drop i).length < 4 + size ↔ i + 4 + size > data.length := by
          rw [List.length_drop]
          omega
        by_cases cut : i + 4 + size > data.length
        · rw [if_pos cut, if_pos (both.mpr cut)]
          rfl
        · rw [if_neg cut, if_neg (mt both.mp cut), List.map_cons, ih, List.drop_drop,
            List.drop_drop, List.drop_take, ← Nat.add_assoc, Nat.add_sub_cancel_left]
      · rename_i outside
        have short : (data.drop i).length < 4 := by
          rw [List.length_drop]
          omega
        rw [Records.read_short short]
        rfl

theorem recordsIn_eq (data : Bytes) : recordsIn data = Records.read 4 data.length data :=
  iterRecordsFrom_eq data data.length 0 0

-----------------------------------------------------------------------------------------
-- Two adapters of other clocks
-----------------------------------------------------------------------------------------

namespace SessionAdapter

variable {B C : Type} {look : B → C} {a a' : SessionAdapter B} {body body' : B}

/-- What of an envelope does not tell when it was emitted. -/
def untimed (look : B → C) (env : Envelope B) : Nat × C := (env.seq, look env.body)

/-- Two adapters that differ in nothing but times: when they emitted their envelopes, and what is
not looked at of the bodies.
-/
structure Twin (look : B → C) (a a' : SessionAdapter B) : Prop where
  subscribed : a'.subscribed = a.subscribed
  liveTailing : a'.liveTailing = a.liveTailing
  seq : a'.seq = a.seq
  buffered : a'.buffered.map look = a.buffered.map look
  history : a'.history.map (untimed look) = a.history.map (untimed look)

theorem Twin.emitEnvelope (twin : Twin look a a') (alike : look body' = look body)
    (now now' : Int)
    : Twin look (a.emitEnvelope body now).1 (a'.emitEnvelope body' now').1 where
  subscribed := twin.subscribed
  liveTailing := twin.liveTailing
  seq := congrArg (· + 1) twin.seq
  buffered := twin.buffered
  history := by
    simp only [SessionAdapter.emitEnvelope, List.map_append, List.map_cons, List.map_nil, untimed,
      alike, twin.seq]
    exact congrArg (· ++ _) twin.history

theorem Twin.emitAll (twin : Twin look a a') {sent sent' : List B}
    (alike : sent'.map look = sent.map look) (clock clock' : Nat → Int)
    : Twin look (a.emitAll clock sent).1 (a'.emitAll clock' sent').1 := by
  induction sent generalizing a a' sent' clock clock' with
  | nil =>
      obtain rfl := List.map_eq_nil_iff.mp alike
      exact twin
  | cons body rest ih =>
      obtain ⟨body', rest', rfl, same, others⟩ := List.map_eq_cons_iff.mp alike
      exact ih (twin.emitEnvelope same (clock 0) (clock' 0)) others _ _

theorem Twin.sendOrBuffer (twin : Twin look a a') (alike : look body' = look body)
    (now now' : Int)
    : Twin look (a.sendOrBuffer body now).1 (a'.sendOrBuffer body' now').1 := by
  unfold SessionAdapter.sendOrBuffer
  rw [twin.liveTailing]
  split
  · exact twin.emitEnvelope alike now now'
  · refine ⟨twin.subscribed, rfl, twin.seq, ?_, twin.history⟩
    simp only [List.map_append, List.map_cons, List.map_nil, twin.buffered, alike]

theorem Twin.subscribe (twin : Twin look a a') (alike : look body' = look body)
    {initial initial' : List B} (firsts : initial'.map look = initial.map look)
    (clock clock' : Nat → Int)
    : Twin look (a.subscribe body initial clock) (a'.subscribe body' initial' clock') := by
  unfold SessionAdapter.subscribe
  rw [twin.subscribed]
  split
  · exact twin
  · have on : Twin look { a with subscribed := true } { a' with subscribed := true } :=
      ⟨rfl, twin.liveTailing, twin.seq, twin.buffered, twin.history⟩
    have shown := on.emitEnvelope alike (clock 0) (clock' 0)
    have waiting : (a'.buffered ++ initial').map look = (a.buffered ++ initial).map look := by
      rw [List.map_append, List.map_append, twin.buffered, firsts]
    have drained := shown.emitAll waiting (fun n => clock (n + 1)) fun n => clock' (n + 1)
    exact ⟨drained.subscribed, rfl, drained.seq, rfl, drained.history⟩

theorem Twin.resendSnapshot (twin : Twin look a a') (alike : look body' = look body)
    (now now' : Int)
    : Twin look (a.resendSnapshot body now).1 (a'.resendSnapshot body' now').1 := by
  unfold SessionAdapter.resendSnapshot
  rw [twin.subscribed]
  split
  · exact twin.emitEnvelope alike now now'
  · exact twin

/-- Both hear the same bodies of a signal, by induction on these. -/
theorem Twin.hear (twin : Twin look a a') {early early' : B → Bool}
    (agree : ∀ body body', look body' = look body → early' body' = early body)
    {sent sent' : List B} (alike : sent'.map look = sent.map look) (clock clock' : Nat → Int)
    : Twin look (a.hear early clock sent) (a'.hear early' clock' sent') := by
  induction sent generalizing a a' sent' clock clock' with
  | nil =>
      obtain rfl := List.map_eq_nil_iff.mp alike
      exact twin
  | cons body rest ih =>
      obtain ⟨body', rest', rfl, same, others⟩ := List.map_eq_cons_iff.mp alike
      rw [SessionAdapter.hear, SessionAdapter.hear, twin.subscribed, agree body body' same]
      refine ih ?_ others _ _
      split
      · exact twin.sendOrBuffer same (clock 0) (clock' 0)
      · exact twin

end SessionAdapter

-----------------------------------------------------------------------------------------
-- Two runs of other clocks
-----------------------------------------------------------------------------------------

/-- The same event at other times. -/
inductive FeedEvent.SameButTimes {ω : Type} : FeedEvent ω → FeedEvent ω → Prop
  | operate (op : ω) (clock clock' : Nat → Int)
      : SameButTimes (.operate op clock) (.operate op clock')
  | opened (id : String) (sink : EnvelopeSink) : SameButTimes (.opened id sink) (.opened id sink)
  | subscribed (id : String) (clock clock' : Nat → Int)
      : SameButTimes (.subscribed id clock) (.subscribed id clock')
  | refreshed (id : String) (now now' : Int)
      : SameButTimes (.refreshed id now) (.refreshed id now')
  | sinkSet (id : String) (sink : EnvelopeSink)
      : SameButTimes (.sinkSet id sink) (.sinkSet id sink)
  | pruned (id : String) : SameButTimes (.pruned id) (.pruned id)

namespace FeedSource

open SessionAdapter (Twin untimed)

variable {σ ω B C : Type} {look : B → C} {src src' : FeedSource σ ω B} {f f' : Fed σ B}

/-- Two sources whose bodies differ only in what is not looked at. -/
structure Alike (look : B → C) (src src' : FeedSource σ ω B) : Prop where
  step : ∀ op s, src'.step op s = src.step op s
  early : ∀ body body', look body' = look body → src'.early body' = src.early body
  sends : ∀ op s, (src'.sends op s).map look = (src.sends op s).map look
  snapshot : ∀ s, look (src'.snapshot s) = look (src.snapshot s)
  initial : ∀ s, (src'.initial s).map look = (src.initial s).map look

/-- The same source, and adapters that differ only in times. -/
structure Twins (look : B → C) (f f' : Fed σ B) : Prop where
  source : f'.source = f.source
  sessions : ∀ id, Option.Rel (Twin look) (f.sessions id) (f'.sessions id)

theorem Twin.rel_map {x x' : Option (SessionAdapter B)} (twins : Option.Rel (Twin look) x x')
    {slot slot' : SessionAdapter B → SessionAdapter B}
    (keeps : ∀ a a', Twin look a a' → Twin look (slot a) (slot' a'))
    : Option.Rel (Twin look) (x.map slot) (x'.map slot') := by
  cases twins with
  | some twin => exact .some (keeps _ _ twin)
  | none => exact .none

theorem Twins.tell (twins : Twins look f f') (id : String)
    {slot slot' : SessionAdapter B → SessionAdapter B}
    (keeps : ∀ a a', Twin look a a' → Twin look (slot a) (slot' a'))
    : Twins look (FeedSource.tell f id slot) (FeedSource.tell f' id slot') := by
  refine ⟨twins.source, fun other => ?_⟩
  by_cases same : other = id
  · subst same
    simp only [FeedSource.tell, Function.update_self]
    exact Twin.rel_map (twins.sessions other) keeps
  · simp only [FeedSource.tell, Function.update_of_ne same]
    exact twins.sessions other

/-- An event keeps both alike, at whatever times it is. -/
theorem Twins.happen (alike : Alike look src src') (twins : Twins look f f')
    {event event' : FeedEvent ω} (same : event.SameButTimes event')
    : Twins look (src.happen event f) (src'.happen event' f') := by
  cases same with
  | operate op clock clock' =>
      refine ⟨?_, fun id => ?_⟩
      · simp only [FeedSource.happen, twins.source, alike.step]
      · simp only [FeedSource.happen, twins.source]
        exact Twin.rel_map (twins.sessions id) fun a a' twin =>
          twin.hear alike.early (alike.sends op f.source) clock clock'
  | opened id sink =>
      refine ⟨twins.source, fun other => ?_⟩
      by_cases same : other = id
      · subst same
        simp only [FeedSource.happen, Function.update_self]
        have both := twins.sessions other
        generalize f.sessions other = x, f'.sessions other = x' at both
        cases both with
        | some twin => exact .some twin
        | none => exact .some ⟨rfl, rfl, rfl, rfl, rfl⟩
      · simp only [FeedSource.happen, Function.update_of_ne same]
        exact twins.sessions other
  | subscribed id clock clock' =>
      refine twins.tell id fun a a' twin => ?_
      rw [twins.source]
      exact twin.subscribe (alike.snapshot _) (alike.initial _) clock clock'
  | refreshed id now now' =>
      refine twins.tell id fun a a' twin => ?_
      rw [twins.source]
      exact twin.resendSnapshot (alike.snapshot _) now now'
  | sinkSet id sink =>
      exact twins.tell id fun a a' twin =>
        ⟨twin.subscribed, twin.liveTailing, twin.seq, twin.buffered, twin.history⟩
  | pruned id =>
      refine ⟨twins.source, fun other => ?_⟩
      by_cases same : other = id
      · subst same
        simp only [FeedSource.happen, Function.update_self]
        exact .none
      · simp only [FeedSource.happen, Function.update_of_ne same]
        exact twins.sessions other

/-- So do whole runs, by induction on them. -/
theorem Twins.exec (alike : Alike look src src') (twins : Twins look f f')
    {events events' : List (FeedEvent ω)}
    (same : List.Forall₂ FeedEvent.SameButTimes events events')
    : Twins look (Machine.exec src.happen f events) (Machine.exec src'.happen f' events') := by
  induction same generalizing f f' with
  | nil => exact twins
  | cons one _ ih => exact ih (twins.happen alike one)

-----------------------------------------------------------------------------------------
-- Recordings
-----------------------------------------------------------------------------------------

/-- The sink of an adapter that records all that it emits. -/
def recording (serialize : Envelope (EnvelopePayload P) → Bytes)
    (a : SessionAdapter (EnvelopePayload P))
    : FileSink :=
  a.history.foldl (FileSink.send serialize) (.create true)

/-- How much of a file some envelopes take. -/
def recordedSize (serialize : Envelope (EnvelopePayload P) → Bytes)
    (envs : List (Envelope (EnvelopePayload P)))
    : Nat :=
  (envs.map fun env => 4 + (recordBytes serialize env).length).sum

theorem recording_file (serialize : Envelope (EnvelopePayload P) → Bytes)
    (a : SessionAdapter (EnvelopePayload P))
    : (recording serialize a).file
      = some (Records.file 4 (a.history.map (recordBytes serialize))) := by
  rw [recording]
  exact congrArg FileSink.file (FileSink.foldl_send serialize [] a.history)

theorem length_file (serialize : Envelope (EnvelopePayload P) → Bytes)
    (envs : List (Envelope (EnvelopePayload P)))
    : (Records.file 4 (envs.map (recordBytes serialize))).length = recordedSize serialize envs := by
  simp only [Records.file, recordedSize, List.length_flatMap, List.map_map]
  exact congrArg List.sum (List.map_congr_left fun env _ => Records.length_frame 4 _)

theorem recording_twin (serialize : Envelope (EnvelopePayload P) → Bytes)
    {a a' : SessionAdapter (EnvelopePayload P)} (twin : Twin EnvelopePayload.scrubbed a a')
    : recording serialize a' = recording serialize a := by
  have bytes (b : SessionAdapter (EnvelopePayload P))
      : b.history.map (recordBytes serialize)
        = (b.history.map (untimed EnvelopePayload.scrubbed)).map
            fun shown => serialize ⟨shown.1, 0, shown.2⟩ := by
    rw [List.map_map]
    rfl
  have file : (recording serialize a').file = (recording serialize a).file := by
    rw [recording_file, recording_file, bytes a', twin.history, ← bytes a]
  exact congrArg FileSink.mk file

/-- What is recorded of a session is read again, also if the file was cut off anywhere: then those
of its envelopes are read, numbered from one without a gap, that were written in full.
-/
theorem recording_cut (serialize : Envelope (EnvelopePayload P) → Bytes)
    (fits : ∀ env, 4 + (serialize env).length < 2147483648)
    {src : FeedSource σ ω (EnvelopePayload P)} {s : σ} {f : Fed σ (EnvelopePayload P)}
    (reached : src.Reaches s f) {id : String} {a : SessionAdapter (EnvelopePayload P)}
    (there : f.sessions id = some a)
    : ∃ file, (recording serialize a).file = some file ∧ ∀ n, ∃ m,
        recordsIn (file.take n) = (a.history.take m).map (recordBytes serialize)
          ∧ (a.history.take m).map (·.seq) = List.range' 1 m
          ∧ recordedSize serialize (a.history.take m) ≤ n
          ∧ (m < a.history.length → n < recordedSize serialize (a.history.take (m + 1))) := by
  refine ⟨_, recording_file serialize a, fun n => ?_⟩
  have settled : src.AllSettled f :=
    reached.invariant (allSettled_start src s) fun _ event _ ok => ok.happen src event
  have numbered := (settled id a there).resumable.numbered
  have length : a.history.length = a.seq := by simpa using congrArg List.length numbered
  have small : ∀ payload ∈ a.history.map (recordBytes serialize), payload.length < 256 ^ 4 := by
    intro payload member
    obtain ⟨env, _, rfl⟩ := List.mem_map.mp member
    have bound := fits env.scrubbed
    simp only [recordBytes]
    omega
  obtain ⟨m, few, complete, within, beyond⟩ :=
    Records.complete_eq_take 4 n (a.history.map (recordBytes serialize))
  rw [List.length_map] at few beyond
  simp only [← List.map_take, length_file] at complete within beyond
  refine ⟨m, ?_, ?_, within, beyond⟩
  · rw [recordsIn_eq, Records.read_take (by decide) small le_rfl, complete]
  · rw [List.map_take, numbered, List.take_range'_of_length_ge (length ▸ few)]

/-- Buffs that are captured at some time. -/
def timedBuffs (capturedMs : UInt64) : FeedSource Nat Nat (EnvelopePayload Nat) where
  step op s := s + op
  sends op s := [.buffs capturedMs (s + op)]
  early _ := false
  snapshot s := .other s
  initial _ := []

/-- A session that subscribes and hears of two buffs. -/
def twoBuffs (now : Int) : List (FeedEvent Nat) :=
  [.opened "golden" .noop, .subscribed "golden" fun _ => now, .operate 2 fun _ => now,
    .operate 3 fun _ => now + 1]

/-- The fields of small envelopes, each behind its tag and left out if it is zero. -/
def smallBytes (env : Envelope (EnvelopePayload Nat)) : Bytes :=
  [0x08, UInt8.ofNat env.seq]
    ++ (if env.serverTsMs = 0 then [] else [0x10, UInt8.ofNat env.serverTsMs.toNat])
    ++ match env.body with
      | .other payload => [0x52, 2, 0x08, UInt8.ofNat payload]
      | .buffs 0 update => [0x7a, 2, 0x08, UInt8.ofNat update]
      | .buffs capturedMs update => [0x7a, 4, 0x08, UInt8.ofNat update, 0x10, capturedMs.toUInt8]
      | .spawnEffects _ update => [0x62, 2, 0x08, UInt8.ofNat update]

theorem smallBytes_fits (env : Envelope (EnvelopePayload Nat))
    : 4 + (smallBytes env).length < 2147483648 := by
  unfold smallBytes
  split_ifs <;> split <;> simp

/-- The recording is cut off within the third envelope. -/
theorem recording_cut_buffs
    : ∃ a file,
        (Machine.exec (timedBuffs 5).happen (start 0) (twoBuffs 1)).sessions "golden" = some a
          ∧ (recording smallBytes a).file = some file
          ∧ ∃ m, recordsIn (file.take 25) = (a.history.take m).map (recordBytes smallBytes)
            ∧ (a.history.take m).map (·.seq) = List.range' 1 m := by
  let f := Machine.exec (timedBuffs 5).happen (start 0) (twoBuffs 1)
  have opened : (f.sessions "golden").isSome := by decide
  obtain ⟨a, there⟩ := Option.isSome_iff_exists.mp opened
  have reached : (timedBuffs 5).Reaches 0 f :=
    Machine.reaches_exec (by simp [Machine.Permits, twoBuffs])
  obtain ⟨file, written, read⟩ := recording_cut smallBytes smallBytes_fits reached there
  obtain ⟨m, records, numbered, _⟩ := read 25
  exact ⟨a, file, there, written, m, records, numbered⟩

end FeedSource

end Scry
