import Mathlib.Order.Fin.Basic
import Scry.Library.Machine
import Scry.Preferences.TomlPreferences

/-! Message filters and the messages they flag.
A filter sits in one of 32 slots and in three preferences of the slot's number. Each message keeps
a bit for every slot, which is set when the message comes in and follows the filters afterwards.
-/

namespace Scry

open TextStream

-----------------------------------------------------------------------------------------
-- Filters
-----------------------------------------------------------------------------------------

/-- A value of the enumeration, whose last name is 35, so that it has six bits. -/
abbrev MessageType := Fin 64

/-- The pattern of a regular expression and the options it is compiled with, none by default. -/
structure MessagePattern where
  pattern : List Char
  patternOptions : UInt32 := 0
deriving DecidableEq

structure MessageFilter where
  name : List Char
  types : UInt64
  regexp : MessagePattern
deriving DecidableEq

/-- Whether a text has a match of an expression. -/
abbrev HasMatch := MessagePattern → List Char → Bool

def maxMessageFilters : Nat := 32

/-- The number of a slot; one beyond these is behind the array. -/
abbrev Slot := Fin maxMessageFilters

/-- `uint64_t(1) << type`. -/
def typeMask (type : MessageType) : UInt64 := ⟨1#64 <<< type.val⟩

/-- `1 << slot`. -/
def slotMask (slot : Slot) : BitVec 32 := 1#32 <<< slot.val

/-- `isFiltered` of a mask of types. -/
def MessageFilter.isFilteredMask (hasMatch : HasMatch) (f : MessageFilter) (messageTypeMask : UInt64)
    (text : List Char)
    : Bool :=
  f.types &&& messageTypeMask ≠ 0 && hasMatch f.regexp text

/-- `isFiltered` of one type. -/
def MessageFilter.isFiltered (hasMatch : HasMatch) (f : MessageFilter) (type : MessageType)
    (text : List Char)
    : Bool :=
  f.isFilteredMask hasMatch (typeMask type) text

structure MessageFilters where
  filters : Slot → Option MessageFilter
  prefs : TomlPreferences

namespace MessageFilters

def sectionName : List Char := "MessageFilters".toList

/-- The preference of a slot. -/
def key (slot : Slot) (suffix : String) : List Char := decimal slot.val ++ suffix.toList

/-- What a slot is read as. An empty name is that of no filter. -/
def load (numbers : NumberReader) (prefs : TomlPreferences) (slot : Slot)
    : Option MessageFilter :=
  let filterName := prefs.getPrefString (key slot "Name") sectionName [] .any
  if filterName = [] then none
  else
    some
      { name := filterName
        types := prefs.getPrefUInt64 numbers (key slot "Types") sectionName 0 .any
        regexp := { pattern := prefs.getPrefString (key slot "Pattern") sectionName ['.'] .any } }

/-- The constructor. -/
def create (numbers : NumberReader) (prefs : TomlPreferences) : MessageFilters :=
  ⟨load numbers prefs, prefs⟩

/-- The preferences of a slot set to a name, a pattern and types. -/
def store (prefs : TomlPreferences) (slot : Slot) (name pattern : List Char) (types : UInt64)
    : TomlPreferences :=
  ((prefs.setPref (key slot "Name") sectionName (.string name)).setPref
    (key slot "Pattern") sectionName (.string pattern)).setPref
      (key slot "Types") sectionName (.uint64 types)

/-- The first vacant slot. -/
def vacant (m : MessageFilters) : Option Slot :=
  (List.finRange maxMessageFilters).find? fun slot => (m.filters slot).isNone

/-- `addFilter` and the slot it signals, which is none where all are taken. -/
def addFilter (m : MessageFilters) (f : MessageFilter) : MessageFilters × Option Slot :=
  match m.vacant with
  | none => (m, none)
  | some slot =>
      (⟨fun other => if other = slot then some f else m.filters other,
        store m.prefs slot f.name f.regexp.pattern f.types⟩, some slot)

/-- `remFilter` of a slot, and whether it signals. -/
def remSlot (m : MessageFilters) (slot : Slot) : MessageFilters × Bool :=
  match m.filters slot with
  | none => (m, false)
  | some _ =>
      (⟨fun other => if other = slot then none else m.filters other,
        store m.prefs slot [] [] 0⟩, true)

/-- The first slot whose filter is meant. -/
def slotOf (m : MessageFilters) (meant : MessageFilter → Bool) : Option Slot :=
  (List.finRange maxMessageFilters).find? fun slot => (m.filters slot).any meant

/-- `filterMessage` of a mask of types. -/
def filterMessageMask (hasMatch : HasMatch) (m : MessageFilters) (messageTypeMask : UInt64)
    (text : List Char)
    : BitVec 32 :=
  (List.finRange maxMessageFilters).foldl
    (fun mask slot =>
      if (m.filters slot).any fun f => f.isFilteredMask hasMatch messageTypeMask text then
        mask ||| slotMask slot
      else mask)
    0

/-- `filterMessage` of one type. -/
def filterMessage (hasMatch : HasMatch) (m : MessageFilters) (type : MessageType)
    (text : List Char)
    : BitVec 32 :=
  m.filterMessageMask hasMatch (typeMask type) text

end MessageFilters

-----------------------------------------------------------------------------------------
-- Messages
-----------------------------------------------------------------------------------------

structure MessageEntry where
  type : MessageType
  text : List Char
  color : UInt32
  filterFlags : BitVec 32

/-- The messages and the filters whose signals reach them. -/
structure Messages where
  messageFilters : MessageFilters
  messages : List MessageEntry := []

/-- How a filter is named that is to be removed: by its slot, its value or its name. -/
inductive MessageFilterRef
  | slot (filter : Slot)
  | value (filter : MessageFilter)
  | called (name : List Char)

/-- The slot a removal is about. -/
def MessageFilterRef.slot? (m : MessageFilters) : MessageFilterRef → Option Slot
  | .slot filter => some filter
  | .value filter => m.slotOf fun f => f = filter
  | .called name => m.slotOf fun f => f.name = name

namespace Messages

def addMessage (hasMatch : HasMatch) (s : Messages) (type : MessageType) (text : List Char)
    (color : UInt32)
    : Messages :=
  let filterFlags := s.messageFilters.filterMessage hasMatch type text
  { s with messages := s.messages ++ [{ type, text, color, filterFlags }] }

def clear (s : Messages) : Messages := { s with messages := [] }

def removedFilter (s : Messages) (mask : BitVec 32) : Messages :=
  { s with messages := s.messages.map fun m => { m with filterFlags := m.filterFlags &&& ~~~mask } }

def addedFilter (hasMatch : HasMatch) (s : Messages) (mask : BitVec 32) (filter : MessageFilter)
    : Messages :=
  { s with
    messages := s.messages.map fun m =>
      if filter.isFiltered hasMatch m.type m.text then
        { m with filterFlags := m.filterFlags ||| mask }
      else m }

/-- A filter is added, and the messages hear of it. -/
def addFilter (hasMatch : HasMatch) (s : Messages) (f : MessageFilter) : Messages :=
  match s.messageFilters.addFilter f with
  | (m, none) => { s with messageFilters := m }
  | (m, some slot) => ({ s with messageFilters := m }).addedFilter hasMatch (slotMask slot) f

/-- A filter is removed, and the messages hear of it. -/
def remFilter (s : Messages) (filter : MessageFilterRef) : Messages :=
  match filter.slot? s.messageFilters with
  | none => s
  | some slot =>
      match s.messageFilters.remSlot slot with
      | (m, false) => { s with messageFilters := m }
      | (m, true) => ({ s with messageFilters := m }).removedFilter (slotMask slot)

inductive Operation
  | addFilter (filter : MessageFilter)
  | remFilter (filter : MessageFilterRef)
  | addMessage (type : MessageType) (text : List Char) (color : UInt32)
  | clear

def step (hasMatch : HasMatch) (op : Operation) (s : Messages) : Messages :=
  match op with
  | .addFilter filter => s.addFilter hasMatch filter
  | .remFilter filter => s.remFilter filter
  | .addMessage type text color => s.addMessage hasMatch type text color
  | .clear => s.clear

-----------------------------------------------------------------------------------------
-- The bits of the masks
-----------------------------------------------------------------------------------------

variable {hasMatch : HasMatch} {s : Messages} {m : MessageFilters} {f : MessageFilter}

/-- The type is in the set of types and the text matches. -/
theorem isFiltered_iff {type : MessageType} {text : List Char}
    : f.isFiltered hasMatch type text = true
      ↔ f.types.toBitVec.getLsbD type = true ∧ hasMatch f.regexp text = true := by
  have masked : f.types &&& typeMask type ≠ 0 ↔ f.types.toBitVec.getLsbD type = true := by
    have bits : (f.types &&& typeMask type).toBitVec
        = if f.types.toBitVec.getLsbD type then BitVec.twoPow 64 type else 0#64 := by
      rw [← BitVec.and_twoPow, BitVec.twoPow_eq]
      rfl
    have power : BitVec.twoPow 64 type ≠ 0#64 := by
      intro zero
      have bit := congrArg (fun v => v.getLsbD type) zero
      simp [type.isLt] at bit
    rw [ne_eq, ← UInt64.toBitVec_inj, bits]
    cases f.types.toBitVec.getLsbD type with
    | false => simp
    | true => simpa using power
  rw [MessageFilter.isFiltered, MessageFilter.isFilteredMask, Bool.and_eq_true, decide_eq_true_eq,
    masked]

theorem getLsbD_slotMask (slot i : Slot) : (slotMask slot).getLsbD i = decide (slot = i) := by
  have inside : slot.val < 32 := slot.isLt
  simp [slotMask, ← BitVec.twoPow_eq, inside, Fin.ext_iff]

/-- A bit of the flags is set in the loop where its slot comes, by induction on the slots. -/
theorem getLsbD_foldl (p : Slot → Bool) (slots : List Slot) (mask : BitVec 32) (i : Slot)
    : (slots.foldl (fun mask slot => if p slot then mask ||| slotMask slot else mask)
        mask).getLsbD i
      = (mask.getLsbD i || (decide (i ∈ slots) && p i)) := by
  induction slots generalizing mask with
  | nil => simp
  | cons slot rest ih =>
      rw [List.foldl_cons, ih]
      by_cases here : slot = i
      · subst here
        cases found : p slot <;> simp [getLsbD_slotMask]
      · have missed : (if p slot then mask ||| slotMask slot else mask).getLsbD i
            = mask.getLsbD i := by
          split_ifs
          · simp [getLsbD_slotMask, here]
          · rfl
        rw [missed]
        simp [Ne.symm here]

theorem getLsbD_filterMessage (type : MessageType) (text : List Char) (i : Slot)
    : (m.filterMessage hasMatch type text).getLsbD i
      = (m.filters i).any fun f => f.isFiltered hasMatch type text := by
  rw [MessageFilters.filterMessage, MessageFilters.filterMessageMask, getLsbD_foldl]
  simp [MessageFilter.isFiltered]

-----------------------------------------------------------------------------------------
-- Coherence
-----------------------------------------------------------------------------------------

/-- The flags of a message are set for the slots whose filters it meets. -/
def Flagged (hasMatch : HasMatch) (filters : Slot → Option MessageFilter) (e : MessageEntry)
    : Prop :=
  ∀ i : Slot, e.filterFlags.getLsbD i = true
    ↔ ∃ f, filters i = some f ∧ f.types.toBitVec.getLsbD e.type = true
        ∧ hasMatch f.regexp e.text = true

/-- All messages are flagged for the filters there are. -/
def Coherent (hasMatch : HasMatch) (s : Messages) : Prop :=
  ∀ e ∈ s.messages, Flagged hasMatch s.messageFilters.filters e

theorem meets_iff {filter : Option MessageFilter} {type : MessageType} {text : List Char}
    : (∃ f, filter = some f ∧ f.types.toBitVec.getLsbD type = true ∧ hasMatch f.regexp text = true)
      ↔ (filter.any fun f => f.isFiltered hasMatch type text) = true := by
  cases filter with
  | none => simp
  | some f => simp [isFiltered_iff]

theorem flagged_iff {filters : Slot → Option MessageFilter} {e : MessageEntry}
    : Flagged hasMatch filters e
      ↔ ∀ i : Slot, e.filterFlags.getLsbD i
          = (filters i).any fun f => f.isFiltered hasMatch e.type e.text :=
  forall_congr' fun i => by rw [meets_iff, ← Bool.eq_iff_iff]

/-- A message that comes in is flagged for the filters there are. -/
theorem coherent_addMessage (coherent : Coherent hasMatch s) (type : MessageType)
    (text : List Char) (color : UInt32)
    : Coherent hasMatch (s.addMessage hasMatch type text color) := by
  intro e member
  rcases List.mem_append.mp member with old | new
  · exact coherent e old
  · obtain rfl := List.mem_singleton.mp new
    exact flagged_iff.mpr (getLsbD_filterMessage type text)

/-- A filter that is added takes a vacant slot, whose bits were clear. -/
theorem coherent_addFilter (coherent : Coherent hasMatch s) (f : MessageFilter)
    : Coherent hasMatch (s.addFilter hasMatch f) := by
  rw [addFilter, MessageFilters.addFilter]
  cases found : s.messageFilters.vacant with
  | none => exact coherent
  | some slot =>
      have free : s.messageFilters.filters slot = none := by
        simpa using List.find?_some found
      intro e member
      obtain ⟨old, there, rfl⟩ := List.mem_map.mp member
      have before := flagged_iff.mp (coherent old there)
      apply flagged_iff.mpr
      intro i
      change _ = Option.any _ (if i = slot then some f else s.messageFilters.filters i)
      by_cases here : i = slot
      · subst here
        have clear : old.filterFlags.getLsbD i = false := by rw [before, free]; rfl
        by_cases hit : f.isFiltered hasMatch old.type old.text = true
        · simp [hit, getLsbD_slotMask]
        · simp [hit, clear]
      · by_cases hit : f.isFiltered hasMatch old.type old.text = true
        · simp [hit, getLsbD_slotMask, here, Ne.symm here, before]
        · simp [hit, here, before]

/-- A filter that is removed leaves no bit behind. -/
theorem coherent_remFilter (coherent : Coherent hasMatch s) (filter : MessageFilterRef)
    : Coherent hasMatch (s.remFilter filter) := by
  rw [remFilter]
  cases filter.slot? s.messageFilters with
  | none => exact coherent
  | some slot =>
      dsimp only
      rw [MessageFilters.remSlot]
      cases s.messageFilters.filters slot with
      | none => exact coherent
      | some f =>
          intro e member
          obtain ⟨old, there, rfl⟩ := List.mem_map.mp member
          have before := flagged_iff.mp (coherent old there)
          apply flagged_iff.mpr
          intro i
          change _ = Option.any _ (if i = slot then none else s.messageFilters.filters i)
          by_cases here : i = slot
          · subst here
            simp [getLsbD_slotMask]
          · have inside : i.val < 32 := i.isLt
            rw [if_neg here, ← before, BitVec.getLsbD_and, BitVec.getLsbD_not, getLsbD_slotMask,
              decide_eq_false (Ne.symm here), decide_eq_true inside]
            exact Bool.and_true _

theorem coherent_step (s : Messages) (op : Operation) (coherent : Coherent hasMatch s)
    : Coherent hasMatch (s.step hasMatch op) := by
  cases op with
  | addFilter filter => exact coherent_addFilter coherent filter
  | remFilter filter => exact coherent_remFilter coherent filter
  | addMessage type text color => exact coherent_addMessage coherent type text color
  | clear =>
      intro e member
      cases member

/-- After every run from any filters, each message is flagged for exactly the slots whose filter
holds its type and matches its text.
-/
theorem coherent_exec (hasMatch : HasMatch) (messageFilters : MessageFilters)
    (ops : List Operation)
    : Coherent hasMatch (Machine.exec (step hasMatch) { messageFilters } ops) := by
  refine Machine.exec_invariant ?_ coherent_step ops
  intro e member
  cases member

end Messages

end Scry
