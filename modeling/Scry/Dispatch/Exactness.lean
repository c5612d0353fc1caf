import Scry.Dispatch.Handlers

/-! A dispatched packet fires exactly the handlers bound to the descriptors it matches, in
the order of the descriptors and of the registrations, wherever the walk comes to its end.
It does not where the remainder by a type size of zero is taken on the way.
-/

namespace Scry

variable {H : Type}

-----------------------------------------------------------------------------------------
-- What registering and dispatching are for
-----------------------------------------------------------------------------------------

namespace EQPacketPayload

/-- The descriptor accepts a packet: it faces the stream's direction, and the length passes
its size check.
-/
def Accepts (payload : EQPacketPayload) (len : Nat) (dir : UInt8) : Prop :=
  payload.dir &&& dir ≠ 0
  ∧ (payload.sizeCheckType = .match → len = payload.typeSize)
  ∧ (payload.sizeCheckType = .modulus → payload.typeSize ∣ len)

instance (payload : EQPacketPayload) (len : Nat) (dir : UInt8)
    : Decidable (payload.Accepts len dir) :=
  inferInstanceAs (Decidable (_ ∧ _ ∧ _))

/-- Matching a packet would take a remainder by zero. -/
def DividesByZero (payload : EQPacketPayload) (dir : UInt8) : Prop :=
  payload.dir &&& dir ≠ 0 ∧ payload.sizeCheckType = .modulus ∧ payload.typeSize = 0

instance (payload : EQPacketPayload) (dir : UInt8) : Decidable (payload.DividesByZero dir) :=
  inferInstanceAs (Decidable (_ ∧ _ ∧ _))

end EQPacketPayload

/-- A registration is for a descriptor: the first that fits it, in the row of its name. -/
def Registration.IsFor (r : Registration H) (db : EQPacketOPCodeDB) (dir : UInt8)
    (ref : PayloadRef)
    : Prop :=
  db.findByName r.opcodeName = some ref.row
  ∧ (∃ payload, (db.payloadsAt ref.row)[ref.index]? = some payload ∧ r.fits dir payload)
  ∧ ∀ earlier < ref.index, ∀ payload,
      (db.payloadsAt ref.row)[earlier]? = some payload → ¬ r.fits dir payload

/-- Some descriptor of the row of its name fits a registration. -/
def Registration.Answered (r : Registration H) (db : EQPacketOPCodeDB) (dir : UInt8) : Prop :=
  ∃ row, db.findByName r.opcodeName = some row
    ∧ ∃ payload ∈ db.payloadsAt row, r.fits dir payload

-----------------------------------------------------------------------------------------
-- Matching
-----------------------------------------------------------------------------------------

namespace EQPacketPayload

/-- Matching has no value exactly where it divides by zero. -/
theorem matchPacket_eq_none_iff (payload : EQPacketPayload) (len : Nat) (dir : UInt8)
    : payload.matchPacket len dir = none ↔ payload.DividesByZero dir := by
  unfold matchPacket DividesByZero
  cases hc : payload.sizeCheckType with
  | none => simp
  | «match» => simp
  | modulus =>
      by_cases hd : payload.dir &&& dir = 0
      · simp [hd]
      · by_cases hz : payload.typeSize = 0 <;> simp [hd, hz]

/-- Where matching has a value, it is acceptance. -/
theorem matchPacket_eq_some {payload : EQPacketPayload} {len : Nat} {dir : UInt8} {b : Bool}
    (h : payload.matchPacket len dir = some b)
    : b = true ↔ payload.Accepts len dir := by
  unfold matchPacket at h
  unfold Accepts
  cases hc : payload.sizeCheckType with
  | none =>
      simp only [hc, Option.some.injEq] at h
      simp [← h]
  | «match» =>
      simp only [hc, Option.some.injEq] at h
      simp [← h, @eq_comm _ len]
  | modulus =>
      by_cases hd : payload.dir &&& dir = 0
      · simp only [hc, hd, bne_self_eq_false, Bool.false_eq_true, if_false,
          Option.some.injEq] at h
        simp [← h, hd]
      · by_cases hz : payload.typeSize = 0
        · simp [hc, hd, hz] at h
        · simp only [hc, bne_iff_ne, ne_eq, hd, not_false_eq_true, if_true, hz, if_false,
            Option.some.injEq] at h
          simp [← h, hd, Nat.dvd_iff_mod_eq_zero]

end EQPacketPayload

-----------------------------------------------------------------------------------------
-- Registering
-----------------------------------------------------------------------------------------

namespace PacketDispatcher

/-- A registration whose row is found binds to the first descriptor that fits. -/
theorem resolve_of_findByName {s : PacketDispatcher H} {r : Registration H} {row : Nat}
    (h : s.opcodeDB.findByName r.opcodeName = some row)
    : s.resolve r
      = ((s.opcodeDB.payloadsAt row).findIdx? (r.fits s.dir)).map fun index =>
          { row, index } := by
  simp only [resolve, h]
  cases (s.opcodeDB.payloadsAt row).findIdx? (r.fits s.dir) <;> rfl

theorem resolve_of_findByName_none {s : PacketDispatcher H} {r : Registration H}
    (h : s.opcodeDB.findByName r.opcodeName = none)
    : s.resolve r = none := by
  simp [resolve, h]

/-- A registration binds to the descriptor it is for. -/
theorem resolve_eq_some_iff (s : PacketDispatcher H) (r : Registration H) (ref : PayloadRef)
    : s.resolve r = some ref ↔ r.IsFor s.opcodeDB s.dir ref := by
  unfold Registration.IsFor
  cases hn : s.opcodeDB.findByName r.opcodeName with
  | none => simp [resolve_of_findByName_none hn]
  | some row =>
      rw [resolve_of_findByName hn, Option.map_eq_some_iff]
      constructor
      · intro h
        obtain ⟨index, hi, rfl⟩ := h
        obtain ⟨hlt, hfit, hfirst⟩ := List.findIdx?_eq_some_iff_getElem.mp hi
        refine ⟨rfl, ⟨_, List.getElem?_eq_getElem hlt, hfit⟩, ?_⟩
        intro earlier he payload hp
        obtain ⟨hle, rfl⟩ := List.getElem?_eq_some_iff.mp hp
        exact hfirst earlier he
      · intro h
        obtain ⟨hr, ⟨payload, hp, hf⟩, hmin⟩ := h
        obtain ⟨refRow, index⟩ := ref
        cases hr
        obtain ⟨hlt, rfl⟩ := List.getElem?_eq_some_iff.mp hp
        refine ⟨index, List.findIdx?_eq_some_iff_getElem.mpr ⟨hlt, hf, ?_⟩, rfl⟩
        intro earlier he
        exact hmin earlier he _ (List.getElem?_eq_getElem (Nat.lt_trans he hlt))

/-- A registration binds exactly when a descriptor answers it. -/
theorem resolve_isSome_iff (s : PacketDispatcher H) (r : Registration H)
    : (s.resolve r).isSome ↔ r.Answered s.opcodeDB s.dir := by
  unfold Registration.Answered
  cases hn : s.opcodeDB.findByName r.opcodeName with
  | none => simp [resolve_of_findByName_none hn]
  | some row => simp [resolve_of_findByName hn, List.findIdx?_isSome, List.any_eq_true]

/-- The handlers filed under each descriptor once a handler is added to one of them. -/
theorem getD_update_append (dispatchers : PayloadRef → Option (List H))
    (bound ref : PayloadRef) (handler : H)
    : (Function.update dispatchers bound
          (some ((dispatchers bound).getD [] ++ [handler])) ref).getD []
      = (dispatchers ref).getD [] ++ if bound = ref then [handler] else [] := by
  by_cases h : bound = ref
  · subst h
    simp
  · simp [h, Function.update_of_ne (Ne.symm h)]

/-- What one registration does to the handlers filed under each descriptor. -/
theorem on_spec (s : PacketDispatcher H) (r : Registration H)
    : (s.on r).1 = (s.resolve r).isSome
      ∧ (s.on r).2.opcodeDB = s.opcodeDB ∧ (s.on r).2.dir = s.dir
      ∧ (s.on r).2.muted = s.muted
      ∧ ∀ ref, (s.on r).2.activate ref
          = s.activate ref ++ if s.resolve r = some ref then [r.handler] else [] := by
  cases hr : s.resolve r with
  | none => simp [on, dispatchFor, hr]
  | some bound =>
      cases hd : s.dispatchers bound with
      | none =>
          simp only [on, dispatchFor, hr, hd, Option.isSome_some, true_and]
          intro ref
          have hadd := getD_update_append s.dispatchers bound ref r.handler
          simpa [activate, hd] using hadd
      | some handlers =>
          simp only [on, dispatchFor, hr, hd, Option.isSome_some, true_and]
          intro ref
          have hadd := getD_update_append s.dispatchers bound ref r.handler
          simpa [activate, hd] using hadd

/-- A registration that binds to nothing leaves the stream as it is. -/
theorem on_of_resolve_none {s : PacketDispatcher H} {r : Registration H}
    (h : s.resolve r = none)
    : s.on r = (false, s) := by
  simp [on, dispatchFor, h]

/-- Which descriptor a registration binds to does not depend on the others. -/
theorem resolve_congr {s t : PacketDispatcher H} (hdb : t.opcodeDB = s.opcodeDB)
    (hdir : t.dir = s.dir) (r : Registration H)
    : t.resolve r = s.resolve r := by
  simp only [resolve, hdb, hdir]

/-- What a sequence of registrations does to the handlers filed under each descriptor. -/
theorem register_spec (s : PacketDispatcher H) (registrations : List (Registration H))
    : (s.register registrations).opcodeDB = s.opcodeDB
      ∧ (s.register registrations).dir = s.dir
      ∧ (s.register registrations).muted = s.muted
      ∧ ∀ ref, (s.register registrations).activate ref
          = s.activate ref
            ++ (registrations.filter fun r => s.resolve r = some ref).map (·.handler) := by
  induction registrations generalizing s with
  | nil => simp [register]
  | cons r rest ih =>
      obtain ⟨-, hdb, hdir, hmuted, hactivate⟩ := on_spec s r
      obtain ⟨idb, idir, imuted, iactivate⟩ := ih (s.on r).2
      have hfold : s.register (r :: rest) = (s.on r).2.register rest := rfl
      rw [hfold]
      refine ⟨idb.trans hdb, idir.trans hdir, imuted.trans hmuted, ?_⟩
      intro ref
      rw [iactivate ref, hactivate ref]
      have hsame : ∀ later, (s.on r).2.resolve later = s.resolve later :=
        resolve_congr hdb hdir
      simp only [hsame]
      by_cases hb : s.resolve r = some ref <;> simp [hb]

-----------------------------------------------------------------------------------------
-- Walking the descriptors
-----------------------------------------------------------------------------------------

/-- The handlers activated for one descriptor at its position. -/
def activatedBy (s : PacketDispatcher H) (row len : Nat) (item : EQPacketPayload × Nat)
    : List H :=
  if item.1.matchPacket len s.dir = some true then s.activate { row, index := item.2 } else []

/-- The descriptors a walk gets to: those before the first division by zero. -/
def reached (dir : UInt8) (len : Nat) (payloads : List EQPacketPayload)
    : List EQPacketPayload :=
  payloads.takeWhile fun payload => (payload.matchPacket len dir).isSome

/-- A walk activates what is bound to the matching descriptors it gets to, in order. -/
theorem walk_activated (s : PacketDispatcher H) (row len index : Nat)
    (payloads : List EQPacketPayload)
    : (s.walk row len index payloads).activated
      = ((reached s.dir len payloads).zipIdx index).flatMap (s.activatedBy row len) := by
  induction payloads generalizing index with
  | nil => rfl
  | cons payload rest ih =>
      cases hm : payload.matchPacket len s.dir with
      | none => simp [walk, reached, hm]
      | some b =>
          cases b with
          | false =>
              simp only [walk, hm, ih, reached, List.takeWhile_cons, Option.isSome_some,
                if_true, List.zipIdx_cons, List.flatMap_cons]
              simp [activatedBy, hm]
          | true =>
              simp only [walk, hm, ih, reached, List.takeWhile_cons, Option.isSome_some,
                if_true, List.zipIdx_cons, List.flatMap_cons]
              simp [activatedBy, hm]

/-- A walk comes to its end exactly when it never divides by zero. -/
theorem walk_returned_iff (s : PacketDispatcher H) (row len index : Nat)
    (payloads : List EQPacketPayload)
    : (s.walk row len index payloads).returned = true
      ↔ ∀ payload ∈ payloads, ¬ payload.DividesByZero s.dir := by
  induction payloads generalizing index with
  | nil => simp [walk]
  | cons payload rest ih =>
      rw [List.forall_mem_cons, ← ih (index + 1), ← payload.matchPacket_eq_none_iff len]
      cases hm : payload.matchPacket len s.dir with
      | none => simp [walk, hm]
      | some b => cases b <;> simp [walk, hm]

/-- A walk that comes to its end got to every descriptor. -/
theorem reached_eq_self {dir : UInt8} {payloads : List EQPacketPayload} (len : Nat)
    (h : ∀ payload ∈ payloads, ¬ payload.DividesByZero dir)
    : reached dir len payloads = payloads := by
  rw [reached, List.takeWhile_eq_self_iff]
  intro payload hp
  rw [Option.isSome_iff_ne_none, ne_eq, payload.matchPacket_eq_none_iff]
  exact h payload hp

/-- What an unmuted stream fires for a packet whose row is found. -/
theorem fired_dispatchPacket {s : PacketDispatcher H} (hm : s.muted = false)
    (call : DispatchCall) (row : Nat)
    : (s.dispatchPacket call (some row)).fired
      = ((reached s.dir call.len (s.opcodeDB.payloadsAt row)).zipIdx).flatMap
          (s.activatedBy row call.len) := by
  rw [← walk_activated]
  simp only [dispatchPacket, hm, Bool.false_eq_true, if_false]
  split <;> simp [Dispatched.fired, List.filterMap_append]

/-- Where no descriptor of the row divides by zero, the packet fires what is bound to the
descriptors that accept it.
-/
theorem fired_of_safe {s : PacketDispatcher H} (hm : s.muted = false) (call : DispatchCall)
    (row : Nat) (h : ∀ payload ∈ s.opcodeDB.payloadsAt row, ¬ payload.DividesByZero s.dir)
    : (s.dispatchPacket call (some row)).fired
      = (s.opcodeDB.payloadsAt row).zipIdx.flatMap fun item =>
          if item.1.Accepts call.len s.dir then s.activate { row, index := item.2 }
          else [] := by
  rw [fired_dispatchPacket hm, reached_eq_self call.len h]
  refine List.flatMap_congr ?_
  intro item hi
  have hsafe := h item.1 (List.fst_mem_of_mem_zipIdx hi)
  rw [← item.1.matchPacket_eq_none_iff call.len] at hsafe
  obtain ⟨b, hb⟩ := Option.ne_none_iff_exists'.mp hsafe
  have hb' := EQPacketPayload.matchPacket_eq_some hb
  unfold activatedBy
  cases b <;> simp_all

/-- A call of `dispatchPacket` comes to its end exactly when no descriptor of the packet's
row divides by zero, unless the stream is muted or no row is found.
-/
theorem returned_dispatchPacket (s : PacketDispatcher H) (call : DispatchCall)
    (opcodeEntry : Option Nat)
    : (s.dispatchPacket call opcodeEntry).returned = true
      ↔ s.muted = true ∨ ∀ row, opcodeEntry = some row →
          ∀ payload ∈ s.opcodeDB.payloadsAt row, ¬ payload.DividesByZero s.dir := by
  unfold dispatchPacket
  by_cases hm : s.muted = true
  · simp [hm]
  · cases opcodeEntry with
    | none => simp [hm]
    | some row =>
        have hw := walk_returned_iff s row call.len 0 (s.opcodeDB.payloadsAt row)
        simp only [hm, Bool.false_eq_true, if_false, false_or, Option.some.injEq, forall_eq']
        rw [← hw]
        split
        · rename_i hr
          simp [hr]
        · rename_i hr
          simp [hr]

end PacketDispatcher

-----------------------------------------------------------------------------------------
-- Soundness and completeness
-----------------------------------------------------------------------------------------

section Exactness

variable (db : EQPacketOPCodeDB) (dir : UInt8) (muted : Bool)
  (registrations : List (Registration H))

/-- The stream with these registrations made on it. -/
def registered : PacketDispatcher H :=
  (PacketDispatcher.fresh db dir muted).register registrations

instance (r : Registration H) (ref : PayloadRef) : Decidable (r.IsFor db dir ref) :=
  decidable_of_iff _ ((PacketDispatcher.fresh db dir false).resolve_eq_some_iff r ref)

/-- The handlers registered for a descriptor, in registration order. -/
def handlersFor (ref : PayloadRef) : List H :=
  (registrations.filter fun r => r.IsFor db dir ref).map (·.handler)

/-- The handlers a packet is meant to fire: for each descriptor of its row that accepts its
length, in order, those registered for it.
-/
def expectedHandlers (call : DispatchCall) : List H :=
  if muted then []
  else
    match db.find call.opcode with
    | none => []
    | some row =>
        (db.payloadsAt row).zipIdx.flatMap fun item =>
          if item.1.Accepts call.len dir then
            handlersFor db dir registrations { row, index := item.2 }
          else []

/-- Registrations are answered by whether a descriptor fits them, an unanswered one changes
nothing, and a packet fires exactly the handlers it is meant to.
-/
structure DispatchesExactly (call : DispatchCall) : Prop where
  answered : ∀ earlier r later, registrations = earlier ++ r :: later →
    (((registered db dir muted earlier).on r).1 = true ↔ r.Answered db dir)
  ignored : ∀ earlier r later, registrations = earlier ++ r :: later →
    ¬ r.Answered db dir →
      ((registered db dir muted earlier).on r).2 = registered db dir muted earlier
  returned : ((registered db dir muted registrations).dispatchCall call).returned = true
  fired : ((registered db dir muted registrations).dispatchCall call).fired
    = expectedHandlers db dir muted registrations call

variable {db dir muted registrations}

theorem activate_registered (ref : PayloadRef)
    : (registered db dir muted registrations).activate ref
      = handlersFor db dir registrations ref := by
  obtain ⟨-, -, -, hactivate⟩ :=
    (PacketDispatcher.fresh db dir muted).register_spec registrations
  have hfresh : (PacketDispatcher.fresh db dir muted : PacketDispatcher H).activate ref = [] :=
    rfl
  rw [registered, hactivate ref, handlersFor, hfresh, List.nil_append]
  congr 1
  refine List.filter_congr ?_
  intro r _
  rw [decide_eq_decide]
  exact (PacketDispatcher.fresh db dir muted).resolve_eq_some_iff r ref

@[simp]
theorem registered_opcodeDB : (registered db dir muted registrations).opcodeDB = db :=
  ((PacketDispatcher.fresh db dir muted).register_spec registrations).1

@[simp]
theorem registered_dir : (registered db dir muted registrations).dir = dir :=
  ((PacketDispatcher.fresh db dir muted).register_spec registrations).2.1

@[simp]
theorem registered_muted : (registered db dir muted registrations).muted = muted :=
  ((PacketDispatcher.fresh db dir muted).register_spec registrations).2.2.1

theorem on_registered_iff (r : Registration H)
    : ((registered db dir muted registrations).on r).1 = true ↔ r.Answered db dir := by
  obtain ⟨hanswer, -⟩ := (registered db dir muted registrations).on_spec r
  rw [hanswer, PacketDispatcher.resolve_isSome_iff]
  simp

/-- Dispatch is sound and complete exactly when the stream is muted or matching the
descriptors of the packet's row takes no remainder by a type size of zero.
-/
theorem dispatchesExactly_iff (db : EQPacketOPCodeDB) (dir : UInt8) (muted : Bool)
    (registrations : List (Registration H)) (call : DispatchCall)
    : DispatchesExactly db dir muted registrations call
      ↔ muted = true ∨ ∀ row, db.find call.opcode = some row →
          ∀ payload ∈ db.payloadsAt row, ¬ payload.DividesByZero dir := by
  have hreturned := (registered db dir muted registrations).returned_dispatchPacket call
    (db.find call.opcode)
  simp only [registered_opcodeDB, registered_dir, registered_muted] at hreturned
  have hcall : (registered db dir muted registrations).dispatchCall call
      = (registered db dir muted registrations).dispatchPacket call (db.find call.opcode) := by
    simp [PacketDispatcher.dispatchCall]
  constructor
  · intro h
    have hr := h.returned
    rw [hcall] at hr
    exact hreturned.mp hr
  · intro hsafe
    refine ⟨?_, ?_, ?_, ?_⟩
    · intro earlier r later _
      exact on_registered_iff r
    · intro earlier r later _ hr
      have hnone : (registered db dir muted earlier).resolve r = none := by
        have := (registered db dir muted earlier).resolve_isSome_iff r
        simp only [registered_opcodeDB, registered_dir, hr, iff_false] at this
        simpa using this
      rw [PacketDispatcher.on_of_resolve_none hnone]
    · rw [hcall]
      exact hreturned.mpr hsafe
    · rw [hcall]
      unfold expectedHandlers
      cases muted with
      | true => simp [PacketDispatcher.dispatchPacket, Dispatched.fired]
      | false =>
          simp only [Bool.false_eq_true, false_or] at hsafe
          cases hf : db.find call.opcode with
          | none => simp [PacketDispatcher.dispatchPacket, Dispatched.fired]
          | some row =>
              have hrow := hsafe row hf
              rw [PacketDispatcher.fired_of_safe (by simp) call row (by simpa using hrow)]
              simp [activate_registered]

end Exactness

/-- A loaded table with one row, whose only descriptor is a modulus check of a type the
database does not know.
-/
def unsizedTable : Bool × EQPacketOPCodeDB :=
  EQPacketOPCodeDB.empty.load (fun _ => none)
    (.parsed (some [
      some {
        id := some "0003"
        name := some "OP_Both"
        payloads := some [
          some { dir := some "both", typename := some "unknown", sizechecktype := some "modulus" }
        ]
      }
    ]))

/-- The table is loaded, and the first packet of that opcode takes a remainder by zero. -/
theorem dispatchesExactly_unsized
    : unsizedTable.1 = true
      ∧ ¬ DispatchesExactly unsizedTable.2 0x02 false ([] : List (Registration Nat))
          { opcode := 3, data := [1, 2, 3, 4], len := 4 } := by
  refine ⟨by decide, ?_⟩
  intro h
  exact absurd h.returned (by decide)

end Scry
