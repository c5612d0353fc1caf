import Scry.Library.LittleEndian

/-! Programs that are handed a buffer by its address alone. They may read at any offset, and hand
what they read to a decoder; a trace records where they did. What is asked of the whole trace
comes apart into what is asked of each part of the program.
-/

/-- The bytes of a buffer, and what memory holds behind them. -/
structure Buffer where
  bytes : List UInt8
  beyond : Nat → UInt8

namespace Buffer

def length (m : Buffer) : Nat := m.bytes.length

def byte (m : Buffer) (offset : Nat) : UInt8 :=
  m.bytes.getD offset (m.beyond (offset - m.length))

/-- So many bytes from an offset on, wherever they lie. -/
def slice (m : Buffer) (offset count : Nat) : List UInt8 :=
  (List.range' offset count).map m.byte

@[simp]
theorem length_slice (m : Buffer) (offset count : Nat)
    : (m.slice offset count).length = count := by
  simp [slice]

/-- Inside the buffer a slice is one of its bytes. -/
theorem slice_eq {m : Buffer} {offset count : Nat} (inside : offset + count ≤ m.length)
    : m.slice offset count = (m.bytes.drop offset).take count := by
  have sized : m.bytes.length = m.length := rfl
  apply List.ext_getElem
  · rw [m.length_slice, List.length_take, List.length_drop]
    omega
  · intro i below _
    rw [m.length_slice] at below
    have here : offset + i < m.bytes.length := by omega
    simp only [slice, List.getElem_map, List.getElem_range', Nat.one_mul, byte,
      List.getElem_take, List.getElem_drop, List.getD_eq_getElem?_getD,
      List.getElem?_eq_getElem here, Option.getD_some]

end Buffer

/-- A decoder of a structure, which refuses what is shorter than the structure can be. -/
structure Decoder (α : Type) where
  least : Nat
  decode : List UInt8 → Option α
  short : ∀ bytes, bytes.length < least → decode bytes = none

/-- The decoder that accepts whatever is long enough. -/
def Decoder.sized {α : Type} (least : Nat) (x : α) : Decoder α where
  least
  decode bytes := if bytes.length < least then none else some x
  short _ less := if_pos less

/-- A decoder accepts no less than its structure. -/
theorem Decoder.least_le {α : Type} (d : Decoder α) {bytes : List UInt8} {x : α}
    (accepted : d.decode bytes = some x)
    : d.least ≤ bytes.length := by
  rcases Nat.lt_or_ge bytes.length d.least with less | enough
  · simp [d.short bytes less] at accepted
  · exact enough

/-- What a program does with a buffer: it reads bytes or passes them on, it decodes a structure
that ends at the soonest at an offset, or the result of an operation wraps around.
-/
inductive Touch
  | read (offset count : Nat)
  | decode (stop : Nat)
  | wrap
  deriving DecidableEq

namespace Touch

/-- It stays inside a buffer of so many bytes. -/
def Inside (length : Nat) : Touch → Prop
  | .read offset count => offset + count ≤ length
  | .decode stop => stop ≤ length
  | .wrap => False

def IsDecode : Touch → Prop
  | .decode _ => True
  | _ => False

end Touch

/-- A program over a buffer: its result, and what it did, in order. -/
def Reading (α : Type) := Buffer → α × List Touch

namespace Reading

variable {α β : Type}

protected def pure (a : α) : Reading α := fun _ => (a, [])

protected def bind (r : Reading α) (f : α → Reading β) : Reading β := fun m =>
  let first := r m
  let second := f first.1 m
  (second.1, first.2 ++ second.2)

instance monadReading : Monad Reading where
  pure := Reading.pure
  bind := Reading.bind

def value (r : Reading α) (m : Buffer) : α := (r m).1

def touches (r : Reading α) (m : Buffer) : List Touch := (r m).2

/-- Bytes from an offset on. -/
def bytes (offset count : Nat) : Reading (List UInt8) := fun m =>
  (m.slice offset count, [.read offset count])

/-- A little-endian number of so many bytes. -/
def word (offset count : Nat) : Reading Nat := do
  return LittleEndian.decode (← bytes offset count)

/-- The mark of an operation whose result wraps around under some condition. -/
def wrapIf (c : Prop) [Decidable c] : Reading Unit := fun _ => ((), if c then [.wrap] else [])

/-- Hand bytes to a decoder. -/
def decode (d : Decoder α) (offset count : Nat) : Reading (Option α) := fun m =>
  (d.decode (m.slice offset count), [.read offset count, .decode (offset + d.least)])

/-- Hand bytes to a decoder and go on with what it decodes, if it accepts them. -/
def whenDecoded (d : Decoder α) (offset count : Nat) (f : α → Reading Bool) : Reading Bool := do
  match ← decode d offset count with
  | none => return false
  | some x => f x

-----------------------------------------------------------------------------------------
-- Runs
-----------------------------------------------------------------------------------------

@[simp]
theorem value_pure (a : α) (m : Buffer) : value (pure a) m = a := rfl

@[simp]
theorem touches_pure (a : α) (m : Buffer) : touches (pure a) m = [] := rfl

theorem value_bytes (offset count : Nat) (m : Buffer)
    : (bytes offset count).value m = m.slice offset count :=
  rfl

@[simp]
theorem value_bind (r : Reading α) (f : α → Reading β) (m : Buffer)
    : (r >>= f).value m = (f (r.value m)).value m := rfl

@[simp]
theorem touches_bind (r : Reading α) (f : α → Reading β) (m : Buffer)
    : (r >>= f).touches m = r.touches m ++ (f (r.value m)).touches m := rfl

-----------------------------------------------------------------------------------------
-- Staying inside
-----------------------------------------------------------------------------------------

/-- All that a program does stays inside the buffer. -/
def Within (r : Reading α) (m : Buffer) : Prop := ∀ t ∈ r.touches m, t.Inside m.length

@[simp]
theorem within_pure (a : α) (m : Buffer) : Within (pure a) m := by
  simp [Within]

@[simp]
theorem within_bind {r : Reading α} {f : α → Reading β} {m : Buffer}
    : (r >>= f).Within m ↔ r.Within m ∧ (f (r.value m)).Within m := by
  simp only [Within, touches_bind, List.mem_append, or_imp, forall_and]

@[simp]
theorem within_bytes {offset count : Nat} {m : Buffer}
    : (bytes offset count).Within m ↔ offset + count ≤ m.length := by
  simp [Within, touches, bytes, Touch.Inside]

@[simp]
theorem within_word {offset count : Nat} {m : Buffer}
    : (word offset count).Within m ↔ offset + count ≤ m.length := by
  simp [word]

@[simp]
theorem within_wrapIf {c : Prop} [Decidable c] {m : Buffer} : (wrapIf c).Within m ↔ ¬ c := by
  by_cases h : c <;> simp [Within, touches, wrapIf, Touch.Inside, h]

@[simp]
theorem within_decode {d : Decoder α} {offset count : Nat} {m : Buffer}
    : (decode d offset count).Within m
      ↔ offset + count ≤ m.length ∧ offset + d.least ≤ m.length := by
  simp [Within, touches, decode, Touch.Inside]

-----------------------------------------------------------------------------------------
-- Being careful
-----------------------------------------------------------------------------------------

/-- A handler stays inside the buffer, except that it may take a structure for longer than the
buffer is where it then ignores the buffer.
-/
def Careful (r : Reading Bool) (m : Buffer) : Prop :=
  ∀ t ∈ r.touches m, t.Inside m.length ∨ t.IsDecode ∧ r.value m = false

theorem Within.careful {r : Reading Bool} {m : Buffer} (within : r.Within m) : r.Careful m :=
  fun t touched => Or.inl (within t touched)

@[simp]
theorem careful_pure (b : Bool) (m : Buffer) : Careful (pure b) m := (within_pure b m).careful

/-- A handler that ignores nothing has no exception to make use of. -/
theorem careful_iff_within {r : Reading Bool} {m : Buffer} (taken : r.value m = true)
    : r.Careful m ↔ r.Within m := by
  simp [Careful, Within, taken]

/-- After a part that stays inside, it rests with what follows. -/
theorem careful_bind_of_within {r : Reading α} {f : α → Reading Bool} {m : Buffer}
    (within : r.Within m)
    : (r >>= f).Careful m ↔ (f (r.value m)).Careful m := by
  simp only [Careful, touches_bind, List.mem_append, or_imp, forall_and, value_bind]
  exact and_iff_right fun t touched => Or.inl (within t touched)

/-- Nothing is handed to a decoder. -/
def Plain (r : Reading α) (m : Buffer) : Prop := ∀ t ∈ r.touches m, ¬ t.IsDecode

@[simp]
theorem plain_pure (a : α) (m : Buffer) : Plain (pure a) m := by
  simp [Plain]

@[simp]
theorem plain_bind {r : Reading α} {f : α → Reading β} {m : Buffer}
    : (r >>= f).Plain m ↔ r.Plain m ∧ (f (r.value m)).Plain m := by
  simp only [Plain, touches_bind, List.mem_append, or_imp, forall_and]

@[simp]
theorem plain_bytes (offset count : Nat) (m : Buffer) : (bytes offset count).Plain m := by
  simp [Plain, touches, bytes, Touch.IsDecode]

@[simp]
theorem plain_word (offset count : Nat) (m : Buffer) : (word offset count).Plain m := by
  simp [word]

@[simp]
theorem plain_wrapIf (c : Prop) [Decidable c] (m : Buffer) : (wrapIf c).Plain m := by
  by_cases h : c <;> simp [Plain, touches, wrapIf, Touch.IsDecode, h]

/-- A part that decodes nothing has to stay inside. -/
theorem Plain.careful_bind {r : Reading α} {f : α → Reading Bool} {m : Buffer}
    (plain : r.Plain m)
    : (r >>= f).Careful m ↔ r.Within m ∧ (f (r.value m)).Careful m := by
  constructor
  · intro careful
    have within : r.Within m := by
      intro t touched
      rcases careful t (by simp [touched]) with inside | ⟨decodes, _⟩
      · exact inside
      · exact absurd decodes (plain t touched)
    exact ⟨within, (careful_bind_of_within within).mp careful⟩
  · rintro ⟨within, careful⟩
    exact (careful_bind_of_within within).mpr careful

/-- The one way to decode carefully: the bytes handed over are the buffer's, which is then longer
than any structure the decoder accepts.
-/
theorem careful_whenDecoded {d : Decoder α} {offset count : Nat} {f : α → Reading Bool}
    {m : Buffer}
    : (whenDecoded d offset count f).Careful m
      ↔ offset + count ≤ m.length
        ∧ ∀ x, d.decode (m.slice offset count) = some x → (f x).Careful m := by
  have result : (decode d offset count).value m = d.decode (m.slice offset count) := rfl
  have traced
      : (decode d offset count).touches m
        = [.read offset count, .decode (offset + d.least)] := rfl
  cases decoded : d.decode (m.slice offset count) with
  | none =>
      simp [whenDecoded, Careful, result, traced, decoded, Touch.Inside, Touch.IsDecode]
  | some x =>
      have least := d.least_le decoded
      rw [m.length_slice] at least
      constructor
      · intro careful
        have inside : offset + count ≤ m.length := by
          rcases careful (.read offset count) (by simp [whenDecoded, traced]) with h | ⟨h, _⟩
          · exact h
          · exact h.elim
        have within : (decode d offset count).Within m :=
          within_decode.mpr ⟨inside, by omega⟩
        refine ⟨inside, fun y same => ?_⟩
        obtain rfl := Option.some.inj same
        have rest := (careful_bind_of_within within).mp careful
        simpa only [result, decoded] using rest
      · rintro ⟨inside, careful⟩
        have within : (decode d offset count).Within m :=
          within_decode.mpr ⟨inside, by omega⟩
        refine (careful_bind_of_within within).mpr ?_
        simpa only [result, decoded] using careful x rfl

end Reading
