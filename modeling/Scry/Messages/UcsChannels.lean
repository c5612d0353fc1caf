import Mathlib.Logic.Function.Basic
import Scry.Library.LongestTail
import Scry.Library.Machine
import Scry.Library.Utf8

/-! Names of chat channels.
A chat record has its channel's name with a masked first character, and now and then with less of
the name. It is resolved by the names that its client is known to have, of which the records
themselves teach some.
-/

namespace Scry

open LongestTail Utf8

-----------------------------------------------------------------------------------------
-- Records and channels
-----------------------------------------------------------------------------------------

/-- A chat record. The masked byte is before the rest of the name; the run is what is printable
before the end of the field.
-/
structure UcsRecord where
  channelFirst : UInt8
  channelRest : List UInt8
  channelRun : List UInt8
  sender : List UInt8
  message : List UInt8
  spam : Bool

/-- The decoders of a packet. -/
structure UcsDecoder where
  chat : List UInt8 → List UcsRecord
  channels : List UInt8 → List (List UInt8)

/-- The order that a set is walked in. -/
structure SetOrder where
  walk : List (List Char) → List (List Char)
  perm : ∀ known, (walk known).Perm known

/-- The order of the insertions. -/
def SetOrder.inserted : SetOrder := ⟨id, fun _ => .refl _⟩

/-- `QSet::insert`. -/
def insertName (name : List Char) (known : List (List Char)) : List (List Char) :=
  if name ∈ known then known else known ++ [name]

/-- `isLetter` and `isUpper` of a Latin-1 character. -/
def isUpperLetter (c : Char) : Bool :=
  'A' ≤ c && c ≤ 'Z' || 'À' ≤ c && c ≤ 'Þ' && c ≠ '×'

/-- A name that a record may teach. -/
def isLearnable (name : List Char) : Bool :=
  2 ≤ name.length && (name.head?.any isUpperLetter)

/-- The run is the rest of the name, perhaps with the masked character before it. -/
def isDominant (rest run : List Char) : Bool :=
  run = rest || run.length = rest.length + 1 && run.drop 1 = rest

/-- The rest of a name, with its first character where the mask is known and gives one that can be
printed.
-/
def repair (first : UInt8) (rest : List Char) (mask : Option UInt8) : List Char :=
  match mask with
  | none => rest
  | some mask =>
      let f := first ^^^ mask
      if 0x20 ≤ f && f < 0x7f then Char.ofNat f.toNat :: rest else rest

/-- `ucsResolveChannel`, with the set as it leaves it. -/
def ucsResolveChannel (order : SetOrder) (first : UInt8) (rest run : List Char)
    (mask : Option UInt8) (known : List (List Char))
    : List Char × List (List Char) :=
  let best := ((order.walk known).foldl (keepHigher (sharedTail run)) ([], 4)).1
  if best ≠ [] then (best, known)
  else if isDominant rest run then
    let name := repair first rest mask
    (name, if isLearnable name then insertName name known else known)
  else (run, known)

structure UcsMessage where
  sender : List Char
  text : List Char
  channelName : List Char
deriving DecidableEq

/-- The masks and the names that are known of each client, and the messages so far. -/
structure UcsChannels where
  chanMask : UInt32 → Option UInt8
  knownChans : UInt32 → List (List Char)
  chat : List UcsMessage

namespace UcsChannels

def fresh : UcsChannels := ⟨fun _ => none, fun _ => [], []⟩

/-- A name of a roster or a notice. -/
def learn (clientAddr : UInt32) (name : List UInt8) (w : UcsChannels) : UcsChannels :=
  { w with
    knownChans := Function.update w.knownChans clientAddr
      (insertName (fromLatin1 name) (w.knownChans clientAddr)) }

/-- The mask that a record is resolved with: one of a general channel gives it. -/
def maskFor (clientAddr : UInt32) (r : UcsRecord) (w : UcsChannels) : Option UInt8 :=
  if fromLatin1 r.channelRest = "eneral".toList then some (r.channelFirst ^^^ 0x47)
  else w.chanMask clientAddr

/-- What a record is resolved to, and the names that are known then. -/
def resolve (order : SetOrder) (clientAddr : UInt32) (r : UcsRecord) (w : UcsChannels)
    : List Char × List (List Char) :=
  ucsResolveChannel order r.channelFirst (fromLatin1 r.channelRest) (fromLatin1 r.channelRun)
    (w.maskFor clientAddr r) (w.knownChans clientAddr)

/-- One record. -/
def record (order : SetOrder) (clientAddr : UInt32) (w : UcsChannels) (r : UcsRecord)
    : UcsChannels :=
  let (channelName, known) := w.resolve order clientAddr r
  let text := fromLatin1 r.message
  { chanMask := Function.update w.chanMask clientAddr (w.maskFor clientAddr r)
    knownChans := Function.update w.knownChans clientAddr known
    chat := w.chat ++
      [⟨fromLatin1 r.sender, if r.spam then "(SPAM) ".toList ++ text else text, channelName⟩] }

/-- `ucsChatMessage`. -/
def ucsChatMessage (d : UcsDecoder) (order : SetOrder) (data : List UInt8) (fromServer : Bool)
    (clientAddr : UInt32) (w : UcsChannels)
    : UcsChannels :=
  if !fromServer || data.length < 12 then w
  else
    let w := (d.channels data).foldl (fun w name => w.learn clientAddr name) w
    (d.chat data).foldl (record order clientAddr) w

end UcsChannels

/-- What a packet is made of: names and records. -/
inductive UcsEvent where
  | name (clientAddr : UInt32) (name : List UInt8)
  | record (clientAddr : UInt32) (order : SetOrder) (r : UcsRecord)

namespace UcsChannels

def step : UcsEvent → UcsChannels → UcsChannels
  | .name clientAddr name, w => w.learn clientAddr name
  | .record clientAddr order r, w => w.record order clientAddr r

variable {w : UcsChannels} {order : SetOrder} {clientAddr : UInt32} {r : UcsRecord}
  {name run rest : List Char} {known : List (List Char)}

/-- The events of a packet. -/
def events (d : UcsDecoder) (order : SetOrder) (data : List UInt8) (fromServer : Bool)
    (clientAddr : UInt32)
    : List UcsEvent :=
  if !fromServer || data.length < 12 then []
  else (d.channels data).map (.name clientAddr) ++ (d.chat data).map (.record clientAddr order)

/-- A packet is a run of its events. -/
theorem ucsChatMessage_eq_exec (d : UcsDecoder) (order : SetOrder) (data : List UInt8)
    (fromServer : Bool) (clientAddr : UInt32) (w : UcsChannels)
    : w.ucsChatMessage d order data fromServer clientAddr
      = Machine.exec step w (events d order data fromServer clientAddr) := by
  rw [ucsChatMessage, events]
  split_ifs
  · rfl
  · rw [Machine.exec_eq_foldl, List.foldl_append, List.foldl_map, List.foldl_map]
    rfl

-----------------------------------------------------------------------------------------
-- Known names
-----------------------------------------------------------------------------------------

theorem mem_insertName {other : List Char}
    : other ∈ insertName name known ↔ other = name ∨ other ∈ known := by
  rw [insertName]
  split_ifs with already
  · exact ⟨Or.inr, fun either => either.elim (fun same => same ▸ already) id⟩
  · rw [List.mem_append, List.mem_singleton, or_comm]

theorem mem_ucsResolveChannel {first : UInt8} {mask : Option UInt8} (member : name ∈ known)
    : name ∈ (ucsResolveChannel order first rest run mask known).2 := by
  rw [ucsResolveChannel]
  dsimp only
  split_ifs
  · exact member
  · exact mem_insertName.mpr (Or.inr member)
  · exact member
  · exact member

/-- What a client is known to have it is known to have from then on. -/
theorem knownChans_step (e : UcsEvent) (member : name ∈ w.knownChans clientAddr)
    : name ∈ (step e w).knownChans clientAddr := by
  cases e with
  | name other new =>
      change name ∈ Function.update w.knownChans other _ clientAddr
      by_cases same : clientAddr = other
      · rw [← same, Function.update_self]
        exact mem_insertName.mpr (Or.inr member)
      · rwa [Function.update_of_ne same]
  | record other order r =>
      change name ∈ Function.update w.knownChans other (w.resolve order other r).2 clientAddr
      by_cases same : clientAddr = other
      · rw [← same, Function.update_self]
        exact mem_ucsResolveChannel member
      · rwa [Function.update_of_ne same]

theorem knownChans_exec (later : List UcsEvent) (member : name ∈ w.knownChans clientAddr)
    : name ∈ (Machine.exec step w later).knownChans clientAddr :=
  Machine.exec_invariant (I := fun w : UcsChannels => name ∈ w.knownChans clientAddr) member
    (fun _ e => knownChans_step e) later

-----------------------------------------------------------------------------------------
-- The name with the longest tail
-----------------------------------------------------------------------------------------

/-- A run that ends in at least five characters of a name. -/
def EndsIn (run name : List Char) : Prop := ∃ tail, 5 ≤ tail.length ∧ tail <:+ run ∧ tail <:+ name

theorem endsIn_iff : EndsIn run name ↔ 4 < sharedTail run name := by
  constructor
  · rintro ⟨tail, long, ofRun, ofName⟩
    exact Nat.lt_of_lt_of_le long (le_sharedTail_iff.mpr ⟨tail, rfl, ofRun, ofName⟩)
  · intro long
    obtain ⟨tail, length, ofRun, ofName⟩ := le_sharedTail_iff.mp (Nat.le_refl (sharedTail run name))
    exact ⟨tail, length ▸ long, ofRun, ofName⟩

theorem EndsIn.ne_nil (endsIn : EndsIn run name) : name ≠ [] := by
  obtain ⟨tail, long, -, ofName⟩ := endsIn
  rintro rfl
  rw [List.suffix_nil.mp ofName] at long
  exact absurd long (by decide)

/-- A name that shares as long a tail with the run as any other. -/
def Longest (known : List (List Char)) (run name : List Char) : Prop :=
  name ∈ known ∧ EndsIn run name ∧ ∀ other ∈ known, sharedTail run other ≤ sharedTail run name

/-- Where the run ends in a known name, the one with the longest tail is taken. -/
theorem resolve_of_endsIn (order : SetOrder) (first : UInt8) (rest : List Char)
    (mask : Option UInt8) {other : List Char} (member : other ∈ known) (endsIn : EndsIn run other)
    : ∃ name, (ucsResolveChannel order first rest run mask known).1 = name
      ∧ Longest known run name := by
  rw [ucsResolveChannel, foldl_keepHigher]
  cases found : (order.walk known).argmax (sharedTail run) with
  | none =>
      have empty := List.argmax_eq_none.mp found
      have perm := order.perm known
      rw [empty] at perm
      rw [perm.nil_eq.symm] at member
      exact absurd member List.not_mem_nil
  | some c =>
      have highest : ∀ other ∈ known, sharedTail run other ≤ sharedTail run c :=
        fun other member => List.le_of_mem_argmax ((order.perm known).mem_iff.mpr member)
          (Option.mem_def.mpr found)
      have long : 4 < sharedTail run c :=
        Nat.lt_of_lt_of_le (endsIn_iff.mp endsIn) (highest other member)
      have listed : c ∈ known :=
        (order.perm known).mem_iff.mp (List.argmax_mem (Option.mem_def.mpr found))
      have longest : Longest known run c := ⟨listed, endsIn_iff.mpr long, highest⟩
      refine ⟨c, ?_, longest⟩
      simp only [Option.elim_some, keepHigher, if_pos long]
      rw [if_pos longest.2.1.ne_nil]

/-- Otherwise the frame decides. -/
theorem resolve_of_not_endsIn (order : SetOrder) (first : UInt8) (rest : List Char)
    (mask : Option UInt8) (none : ∀ other ∈ known, ¬ EndsIn run other)
    : (ucsResolveChannel order first rest run mask known).1
      = if isDominant rest run then repair first rest mask else run := by
  have kept : ((order.walk known).foldl (keepHigher (sharedTail run)) ([], 4)).1 = [] := by
    rw [foldl_keepHigher]
    cases found : (order.walk known).argmax (sharedTail run) with
    | none => rfl
    | some c =>
        have listed : c ∈ known :=
          (order.perm known).mem_iff.mp (List.argmax_mem (Option.mem_def.mpr found))
        have short : ¬ 4 < sharedTail run c := fun long => none c listed (endsIn_iff.mpr long)
        simp only [Option.elim_some, keepHigher, if_neg short]
  rw [ucsResolveChannel]
  dsimp only
  rw [if_neg (fun some => some kept)]
  split_ifs <;> rfl

/-- The order that has a name first. -/
def orderFrom (name : List Char) (known : List (List Char)) (member : name ∈ known) : SetOrder where
  walk names := if names = known then name :: known.erase name else names
  perm names := by
    split_ifs with same
    · exact same ▸ (List.perm_cons_erase member).symm
    · exact .refl _

/-- Each name with the longest tail is taken in some order. -/
theorem resolve_orderFrom (first : UInt8) (rest : List Char) (mask : Option UInt8)
    (longest : Longest known run name)
    : (ucsResolveChannel (orderFrom name known longest.1) first rest run mask known).1 = name := by
  obtain ⟨member, endsIn, highest⟩ := longest
  have walk : (orderFrom name known member).walk known = name :: known.erase name := if_pos rfl
  rw [ucsResolveChannel, foldl_keepHigher, walk,
    argmax_cons_highest fun other kept => highest other (List.mem_of_mem_erase kept)]
  simp only [Option.elim_some, keepHigher, if_pos (endsIn_iff.mp endsIn)]
  rw [if_pos endsIn.ne_nil]

-----------------------------------------------------------------------------------------
-- What records are resolved to
-----------------------------------------------------------------------------------------

/-- The name that a record is resolved to. -/
def channelName (order : SetOrder) (clientAddr : UInt32) (r : UcsRecord) (w : UcsChannels)
    : List Char :=
  (w.resolve order clientAddr r).1

/-- A dominant frame with a name whose first character is masked by the key of the session. -/
def Framed (key : UInt8) (name : List Char) (r : UcsRecord) : Prop :=
  isDominant (fromLatin1 r.channelRest) (fromLatin1 r.channelRun) = true
    ∧ name = Char.ofNat (r.channelFirst ^^^ key).toNat :: fromLatin1 r.channelRest

/-- A record of a channel. -/
def OfChannel (key : UInt8) (name : List Char) (r : UcsRecord) : Prop :=
  EndsIn (fromLatin1 r.channelRun) name ∨ Framed key name r

/-- The run ends in a name, and shares a shorter tail with every other known name. -/
def Alone (clientAddr : UInt32) (name : List Char) (r : UcsRecord) (w : UcsChannels) : Prop :=
  EndsIn (fromLatin1 r.channelRun) name
    ∧ ∀ other ∈ w.knownChans clientAddr, other ≠ name →
        sharedTail (fromLatin1 r.channelRun) other < sharedTail (fromLatin1 r.channelRun) name

/-- The run ends in no known name, and the mask is known and gives a character that can be
printed.
-/
def Unmasked (clientAddr : UInt32) (key : UInt8) (r : UcsRecord) (w : UcsChannels) : Prop :=
  (∀ other ∈ w.knownChans clientAddr, ¬ EndsIn (fromLatin1 r.channelRun) other)
    ∧ w.maskFor clientAddr r = some key
    ∧ 0x20 ≤ r.channelFirst ^^^ key ∧ r.channelFirst ^^^ key < 0x7f

/-- A frame is repaired by its key alone. -/
theorem repair_iff {first key : UInt8} {mask : Option UInt8}
    : repair first rest mask = Char.ofNat (first ^^^ key).toNat :: rest
      ↔ mask = some key ∧ 0x20 ≤ first ^^^ key ∧ first ^^^ key < 0x7f := by
  have shorter {c : Char} : rest ≠ c :: rest := fun same => by
    have length := congrArg List.length same
    rw [List.length_cons] at length
    omega
  cases mask with
  | none => exact iff_of_false shorter fun all => Option.some_ne_none key all.1.symm
  | some m =>
      rw [repair, Option.some.injEq]
      constructor
      · intro same
        split_ifs at same with printable
        · have chars := congrArg Char.toNat (List.cons.inj same).1
          rw [toNat_ofByte, toNat_ofByte, UInt8.toNat_inj, UInt8.xor_right_inj] at chars
          subst chars
          rw [Bool.and_eq_true, decide_eq_true_eq, decide_eq_true_eq] at printable
          exact ⟨rfl, printable⟩
        · exact absurd same shorter
      · rintro ⟨rfl, low, high⟩
        rw [if_pos (by rw [Bool.and_eq_true]; exact ⟨decide_eq_true low, decide_eq_true high⟩)]

/-- The order of the set makes no difference if and only if no two names share the longest tail
with the run.
-/
theorem channelName_order_iff
    : (∀ one other : SetOrder,
        w.channelName one clientAddr r = w.channelName other clientAddr r)
      ↔ ∀ name other, Longest (w.knownChans clientAddr) (fromLatin1 r.channelRun) name →
          Longest (w.knownChans clientAddr) (fromLatin1 r.channelRun) other → name = other := by
  constructor
  · intro always name other first second
    have same := always (orderFrom name _ first.1) (orderFrom other _ second.1)
    rwa [channelName, channelName, resolve, resolve, resolve_orderFrom _ _ _ first,
      resolve_orderFrom _ _ _ second] at same
  · intro unique one other
    rw [channelName, channelName, resolve, resolve]
    by_cases some : ∃ name ∈ w.knownChans clientAddr, EndsIn (fromLatin1 r.channelRun) name
    · obtain ⟨name, member, endsIn⟩ := some
      obtain ⟨a, first, aLongest⟩ := resolve_of_endsIn one r.channelFirst
        (fromLatin1 r.channelRest) (w.maskFor clientAddr r) member endsIn
      obtain ⟨b, second, bLongest⟩ := resolve_of_endsIn other r.channelFirst
        (fromLatin1 r.channelRest) (w.maskFor clientAddr r) member endsIn
      rw [first, second, unique a b aLongest bLongest]
    · have none : ∀ name ∈ w.knownChans clientAddr, ¬ EndsIn (fromLatin1 r.channelRun) name :=
        fun name member endsIn => some ⟨name, member, endsIn⟩
      rw [resolve_of_not_endsIn one _ _ _ none, resolve_of_not_endsIn other _ _ _ none]

/-- A record of a known channel is resolved to it in every order if and only if no other known
name shares as long a tail with it, or it ends in none and its mask is known.
-/
theorem channelName_eq_iff {key : UInt8} (member : name ∈ w.knownChans clientAddr)
    (ofChannel : OfChannel key name r)
    : (∀ order, w.channelName order clientAddr r = name)
      ↔ w.Alone clientAddr name r ∨ w.Unmasked clientAddr key r := by
  by_cases some : ∃ other ∈ w.knownChans clientAddr, EndsIn (fromLatin1 r.channelRun) other
  · obtain ⟨other, listed, endsIn⟩ := some
    have masked : ¬ w.Unmasked clientAddr key r := fun unmasked => unmasked.1 other listed endsIn
    rw [or_iff_left masked]
    constructor
    · intro always
      obtain ⟨a, found, longest⟩ := resolve_of_endsIn SetOrder.inserted r.channelFirst
        (fromLatin1 r.channelRest) (w.maskFor clientAddr r) listed endsIn
      obtain rfl : a = name := found.symm.trans (always _)
      refine ⟨longest.2.1, fun b isKnown apart => ?_⟩
      by_contra asLong
      have above := Nat.not_lt.mp asLong
      have isLongest : Longest (w.knownChans clientAddr) (fromLatin1 r.channelRun) b :=
        ⟨isKnown, endsIn_iff.mpr (Nat.lt_of_lt_of_le (endsIn_iff.mp longest.2.1) above),
          fun c member => Nat.le_trans (longest.2.2 c member) above⟩
      exact apart ((resolve_orderFrom _ _ _ isLongest).symm.trans (always _))
    · rintro ⟨-, shorter⟩ order
      obtain ⟨a, found, longest⟩ := resolve_of_endsIn order r.channelFirst
        (fromLatin1 r.channelRest) (w.maskFor clientAddr r) listed endsIn
      refine found.trans ?_
      by_contra apart
      exact Nat.not_lt.mpr (longest.2.2 name member) (shorter a longest.1 apart)
  · have none : ∀ other ∈ w.knownChans clientAddr, ¬ EndsIn (fromLatin1 r.channelRun) other :=
      fun other member endsIn => some ⟨other, member, endsIn⟩
    have notAlone : ¬ w.Alone clientAddr name r := fun alone => none name member alone.1
    obtain ⟨dominant, isName⟩ := ofChannel.resolve_left (none name member)
    rw [or_iff_right notAlone]
    have resolved (order : SetOrder) : w.channelName order clientAddr r
        = repair r.channelFirst (fromLatin1 r.channelRest) (w.maskFor clientAddr r) := by
      rw [channelName, resolve, resolve_of_not_endsIn order _ _ _ none, if_pos dominant]
    simp only [resolved]
    rw [isName, repair_iff, Unmasked, and_iff_right none]
    exact ⟨fun always => always SetOrder.inserted, fun all _ => all⟩

/-- A record is resolved to one name whatever the order of the set if and only if no two known
names share the longest tail with it. From when a name is known on, whatever else is learned
before and after, a record of the channel is resolved to it if and only if no other known name
shares as long a tail with the record, or the record ends in no known name and its mask is
known.
-/
theorem channelName_stable_iff (earlier later : List UcsEvent) (clientAddr : UInt32) (key : UInt8)
    (r : UcsRecord) (name : List Char)
    : let before := Machine.exec step fresh earlier
      let w := Machine.exec step before later
      ((∀ one other : SetOrder,
          w.channelName one clientAddr r = w.channelName other clientAddr r)
        ↔ ∀ a b, Longest (w.knownChans clientAddr) (fromLatin1 r.channelRun) a →
            Longest (w.knownChans clientAddr) (fromLatin1 r.channelRun) b → a = b)
      ∧ (name ∈ before.knownChans clientAddr → OfChannel key name r →
          ((∀ order, w.channelName order clientAddr r = name)
            ↔ w.Alone clientAddr name r ∨ w.Unmasked clientAddr key r)) :=
  ⟨channelName_order_iff, fun member => channelName_eq_iff (knownChans_exec later member)⟩

def bytesOf (text : String) : List UInt8 := toLatin1 text.toList

/-- A name of a roster, and a record that ends in all of it but the masked character. -/
theorem channelName_stable_iff_roster
    : let w := Machine.exec step fresh [.name 1 (bytesOf "General1")]
      let r : UcsRecord := ⟨0x1b, bytesOf "eneral1", bytesOf "eneral1", [], [], false⟩
      ∀ order, w.channelName order 1 r = "General1".toList :=
  ((channelName_stable_iff [.name 1 (bytesOf "General1")] [] 1 0x5c
      ⟨0x1b, bytesOf "eneral1", bytesOf "eneral1", [], [], false⟩ "General1".toList).2
    (by decide) (Or.inl (endsIn_iff.mpr (by decide)))).mpr
    (Or.inl ⟨endsIn_iff.mpr (by decide), by decide⟩)

/-- A record that was learned from before the mask was known ends in the whole of the name that it
taught, and in as much of the right one.
-/
theorem not_channelName_stable
    : ¬ ∀ (earlier later : List UcsEvent) (clientAddr : UInt32) (key : UInt8) (r : UcsRecord)
        (name : List Char),
        let before := Machine.exec step fresh earlier
        let w := Machine.exec step before later
        (∀ one other : SetOrder,
            w.channelName one clientAddr r = w.channelName other clientAddr r)
          ∧ (name ∈ before.knownChans clientAddr → OfChannel key name r →
              ∀ order, w.channelName order clientAddr r = name) := by
  intro always
  let r : UcsRecord := ⟨0x10, bytesOf "FGroup", bytesOf "FGroup", [], [], false⟩
  have stable := (always [.record 1 SetOrder.inserted r, .name 1 (bytesOf "LFGroup")] [] 1 0x5c r
    "LFGroup".toList).2 (by decide) (Or.inr ⟨by decide, by decide⟩) SetOrder.inserted
  exact absurd stable (by decide)

end UcsChannels

end Scry
