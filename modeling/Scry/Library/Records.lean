import Mathlib.Data.List.Infix
import Scry.Library.LittleEndian

/-! Length-delimited records: the length of each in a fixed number of bytes, and then its bytes.
A reader of a file that was cut off finds the records that are there in full.
-/

namespace Records

variable {k n fuel : Nat} {payload data : List UInt8} {payloads : List (List UInt8)}

def frame (k : Nat) (payload : List UInt8) : List UInt8 :=
  LittleEndian.encode k payload.length ++ payload

def file (k : Nat) (payloads : List (List UInt8)) : List UInt8 := payloads.flatMap (frame k)

/-- The records that the first bytes of a file have in full. -/
def complete (k n : Nat) : List (List UInt8) → List (List UInt8)
  | [] => []
  | payload :: rest =>
      if k + payload.length ≤ n then payload :: complete k (n - (k + payload.length)) rest else []

/-- A reader, which stops at a record that is not there in full. -/
def read (k : Nat) : Nat → List UInt8 → List (List UInt8)
  | 0, _ => []
  | fuel + 1, data =>
      let size := LittleEndian.decode (data.take k)
      if data.length < k + size then []
      else (data.drop k).take size :: read k fuel (data.drop (k + size))

@[simp]
theorem length_frame (k : Nat) (payload : List UInt8)
    : (frame k payload).length = k + payload.length := by
  rw [frame, List.length_append, LittleEndian.length_encode]

-----------------------------------------------------------------------------------------
-- What is complete
-----------------------------------------------------------------------------------------

/-- The complete records are the first ones, as many as there is room for. -/
theorem complete_eq_take (k n : Nat) (payloads : List (List UInt8))
    : ∃ m ≤ payloads.length, complete k n payloads = payloads.take m
        ∧ (file k (payloads.take m)).length ≤ n
        ∧ (m < payloads.length → n < (file k (payloads.take (m + 1))).length) := by
  induction payloads generalizing n with
  | nil => exact ⟨0, le_rfl, rfl, Nat.zero_le n, fun short => absurd short (Nat.lt_irrefl 0)⟩
  | cons payload rest ih =>
      by_cases room : k + payload.length ≤ n
      · obtain ⟨m, few, same, within, beyond⟩ := ih (n - (k + payload.length))
        refine ⟨m + 1, Nat.succ_le_succ few, ?_, ?_, fun short => ?_⟩
        · rw [complete, if_pos room, same, List.take_succ_cons]
        · simp only [file, List.take_succ_cons, List.flatMap_cons, List.length_append,
            length_frame] at within ⊢
          omega
        · have next := beyond (Nat.lt_of_succ_lt_succ short)
          simp only [file, List.take_succ_cons, List.flatMap_cons, List.length_append,
            length_frame] at next ⊢
          omega
      · refine ⟨0, Nat.zero_le _, ?_, Nat.zero_le n, fun _ => ?_⟩
        · rw [complete, if_neg room]
          rfl
        · simp only [file, List.take_succ_cons, List.flatMap_cons, List.length_append,
            length_frame]
          omega

-----------------------------------------------------------------------------------------
-- What is read
-----------------------------------------------------------------------------------------

theorem read_short (short : data.length < k) : read k fuel data = [] := by
  cases fuel with
  | zero => rfl
  | succ fuel =>
      simp only [read]
      rw [if_pos]
      omega

/-- A record that is there in full is read, and the reader goes on behind it. -/
theorem read_frame (fits : payload.length < 256 ^ k) (rest : List UInt8)
    : read k (fuel + 1) (frame k payload ++ rest) = payload :: read k fuel rest := by
  have head : (frame k payload ++ rest).take k = LittleEndian.encode k payload.length := by
    rw [frame, List.append_assoc]
    exact List.take_left' (LittleEndian.length_encode k _)
  have size : LittleEndian.decode (LittleEndian.encode k payload.length) = payload.length := by
    rw [LittleEndian.decode_encode, Nat.mod_eq_of_lt fits]
  have body : (frame k payload ++ rest).drop k = payload ++ rest := by
    rw [frame, List.append_assoc]
    exact List.drop_left' (LittleEndian.length_encode k _)
  have after : (frame k payload ++ rest).drop (k + payload.length) = rest :=
    List.drop_left' (length_frame k payload)
  simp only [read, head, size, body, after, List.take_left]
  rw [if_neg]
  rw [List.length_append, length_frame]
  omega

/-- A record that is cut off is not read. -/
theorem read_cut (fits : payload.length < 256 ^ k) (short : n < k + payload.length)
    : read k fuel ((frame k payload).take n) = [] := by
  have length : ((frame k payload).take n).length = n := by
    rw [List.length_take, length_frame]
    omega
  by_cases prefixed : n < k
  · exact read_short (length.trans_lt prefixed)
  · cases fuel with
    | zero => rfl
    | succ fuel =>
        have head : ((frame k payload).take n).take k = LittleEndian.encode k payload.length := by
          rw [List.take_take, Nat.min_eq_left (by omega), frame]
          exact List.take_left' (LittleEndian.length_encode k _)
        simp only [read, head, LittleEndian.decode_encode, Nat.mod_eq_of_lt fits, length]
        rw [if_pos short]

/-- Of a file that is cut off anywhere the complete records are read, by induction on these. -/
theorem read_take (prefixed : 0 < k) (fits : ∀ payload ∈ payloads, payload.length < 256 ^ k)
    (enough : ((file k payloads).take n).length ≤ fuel)
    : read k fuel ((file k payloads).take n) = complete k n payloads := by
  induction payloads generalizing n fuel with
  | nil => simpa [file, complete] using read_short prefixed
  | cons payload rest ih =>
      obtain ⟨first, others⟩ := List.forall_mem_cons.mp fits
      have parts : file k (payload :: rest) = frame k payload ++ file k rest := rfl
      rw [parts] at enough ⊢
      by_cases room : k + payload.length ≤ n
      · have cut : (frame k payload ++ file k rest).take n
            = frame k payload ++ (file k rest).take (n - (k + payload.length)) := by
          rw [List.take_append, length_frame, List.take_of_length_le (by simpa using room)]
        rw [cut, List.length_append, length_frame] at enough
        obtain ⟨fuel, rfl⟩ := Nat.exists_eq_add_one.mpr (by omega : 0 < fuel)
        rw [cut, read_frame first, complete, if_pos room, ih others (by omega)]
      · have cut : (frame k payload ++ file k rest).take n = (frame k payload).take n :=
          List.take_append_of_le_length (by rw [length_frame]; omega)
        rw [cut, read_cut first (by omega), complete, if_neg room]

end Records
