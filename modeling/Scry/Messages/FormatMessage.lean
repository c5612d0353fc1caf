import Scry.Backend.UnsizedReads
import Scry.Library.Utf8
import Scry.Messages.EqStr

/-! Messages are formatted with arguments that come as a blob: the size of an argument stands
before its text. The sizes decide which bytes are read, and the numbers of placeholders which
arguments are looked up.
-/

namespace Scry

open Reading Rescan

namespace EQStr

-----------------------------------------------------------------------------------------
-- Arguments of a blob
-----------------------------------------------------------------------------------------

/-- An argument of a known format is kept if it is not empty. -/
def readArgument (curArg : Nat) (curSize : UInt32) : Reading (List (List Char)) :=
  if 0 < curSize then do return [Utf8.fromUtf8 (← bytes curArg curSize.toNat)]
  else return []

/-- The loop over the arguments of a known format, from `totalArgsLen` on. The sum of a size and
four is a `uint32_t`; where it is zero, the loop never ends.
-/
def readArgList (argsLen totalArgsLen : Nat) : Reading (Option (List (List Char))) := do
  if _h : totalArgsLen < argsLen then
    let curSize ← WireLive.u32 totalArgsLen
    let arg ← readArgument (totalArgsLen + 4) curSize
    if _moves : 0 < (curSize + 4).toNat then
      let more ← readArgList argsLen (totalArgsLen + (curSize + 4).toNat)
      return more.map (arg ++ ·)
    else return none
  else return some []
termination_by argsLen - totalArgsLen
decreasing_by omega

/-- The loop over the arguments of an unknown format, from `cp` on. -/
def readUnknown (argsLen cp : Nat) : Reading (List Char) := do
  if _h : cp + 4 < argsLen then
    let arg_len ← WireLive.u32 cp
    if arg_len = 0 ∨ argsLen < arg_len.toNat then return []
    else
      let arg ← bytes (cp + 4) arg_len.toNat
      let more ← readUnknown argsLen (cp + 4 + arg_len.toNat)
      return ' ' :: Utf8.fromUtf8 arg ++ more
  else return []
termination_by argsLen - cp

/-- `Unknown: %04x:`. -/
def unknown (formatid : UInt32) : List Char :=
  "Unknown: ".toList ++ List.leftpad 4 '0' (Nat.toDigits 16 formatid.toNat) ++ [':']

variable (q : EQStr) (stray : List Char)

/-- `formatMessage` over a blob, in so many rounds of each loop at most. -/
def formatMessage (rounds : Nat) (formatid : UInt32) (argsLen : Nat)
    : Reading (Option (List Char)) := do
  match q.messageStrings formatid.toInt32 with
  | [] => return some (unknown formatid ++ (← readUnknown argsLen 0))
  | c :: rest =>
      let argList ← readArgList argsLen 0
      return argList.bind fun argList => formatLoops q argList stray rounds (c :: rest)

-----------------------------------------------------------------------------------------
-- Lookups
-----------------------------------------------------------------------------------------

/-- The places of the list that are looked up for some placeholders. -/
def lookups (argList : List (List Char)) (met : List (List Char)) : List Int :=
  (met.filter fun digits => substArg digits ≤ argList.length).map fun digits =>
    (substArg digits : Int) - 1

/-- The places that the two loops look up in the first rounds. -/
def formatLookups (argList : List (List Char)) (rounds : Nat) (formatStringRes : List Char)
    : List Int :=
  lookups argList (rxt.met (putTemplate q argList stray) rounds formatStringRes)
    ++ match rxt.run (putTemplate q argList stray) rounds formatStringRes with
      | none => []
      | some formatString =>
          lookups argList (rx.met (putArgument argList stray) rounds formatString)

/-- All lookups find an argument. -/
def LooksUp (formatid : UInt32) (m : Buffer) : Prop :=
  q.messageStrings formatid.toInt32 ≠ [] →
    ∀ argList, (readArgList m.length 0).value m = some argList →
      ∀ rounds, ∀ i ∈ formatLookups q stray argList rounds (q.messageStrings formatid.toInt32),
        0 ≤ i ∧ i < argList.length

-----------------------------------------------------------------------------------------
-- Reads inside and outside of a blob
-----------------------------------------------------------------------------------------

/-- Every size from `total` on lies inside of the blob, and so does the text behind it. -/
inductive ArgumentsInside (m : Buffer) : Nat → Prop
  | done {total : Nat} (reached : m.length ≤ total) : ArgumentsInside m total
  | stays {total : Nat}
      (fits : total + 4 + (WireLive.argumentSize m total).toNat ≤ m.length)
      (stays : (WireLive.argumentSize m total + 4).toNat = 0) :
      ArgumentsInside m total
  | next {total : Nat}
      (fits : total + 4 + (WireLive.argumentSize m total).toNat ≤ m.length)
      (rest : ArgumentsInside m (total + (WireLive.argumentSize m total + 4).toNat)) :
      ArgumentsInside m total

variable {q stray} {m : Buffer} {argList : List (List Char)} {formatid : UInt32}

theorem within_readArgument {curArg : Nat} {curSize : UInt32}
    : (readArgument curArg curSize).Within m
      ↔ (0 < curSize → curArg + curSize.toNat ≤ m.length) := by
  rw [readArgument]
  split
  · next filled => simp [filled]
  · next empty => simp [empty]

/-- One round reads a size and the text behind it. -/
theorem round_inside {total length : Nat} {size : UInt32}
    : total + 4 ≤ length ∧ (0 < size → total + 4 + size.toNat ≤ length)
      ↔ total + 4 + size.toNat ≤ length := by
  rw [UInt32.lt_iff_toNat_lt]
  constructor
  · rintro ⟨four, text⟩
    rcases Nat.eq_zero_or_pos size.toNat with empty | filled
    · omega
    · exact text filled
  · exact fun fits => ⟨by omega, fun _ => fits⟩

theorem within_readArgList (total : Nat)
    : (readArgList m.length total).Within m ↔ ArgumentsInside m total := by
  induction total using readArgList.induct m.length with
  | case1 total left ih =>
      rw [readArgList, dif_pos left, within_bind, WireLive.within_u32, within_bind,
        within_readArgument, ← and_assoc, round_inside]
      have read : (WireLive.u32 total).value m = WireLive.argumentSize m total := rfl
      rw [read]
      split
      · next moves =>
          rw [within_bind, ih _ moves, and_iff_left (within_pure _ _)]
          constructor
          · rintro ⟨fits, rest⟩
            exact .next fits rest
          · intro inside
            cases inside with
            | done reached => omega
            | stays _ stays => exact absurd stays (Nat.ne_of_gt moves)
            | next fits rest => exact ⟨fits, rest⟩
      · next stays =>
          rw [and_iff_left (within_pure _ _)]
          constructor
          · intro fits
            exact .stays fits (Nat.eq_zero_of_not_pos stays)
          · intro inside
            cases inside with
            | done reached => omega
            | stays fits _ => exact fits
            | next fits _ => exact fits
  | case2 total reached =>
      rw [readArgList, dif_neg reached]
      exact iff_of_true (within_pure _ _) (.done (Nat.not_lt.mp reached))

/-- The arguments of an unknown format are read as the live backend's model reads them. -/
theorem touches_readUnknown (argsLen cp : Nat)
    : (readUnknown argsLen cp).touches m = (WireLive.readUnknown 0 argsLen cp).touches m := by
  induction cp using readUnknown.induct argsLen with
  | case1 cp left ih =>
      rw [readUnknown, WireLive.readUnknown, dif_pos left, dif_pos left, touches_bind,
        touches_bind, Nat.zero_add]
      congr 1
      split
      · rfl
      · rw [touches_bind, touches_bind, touches_bind, ih, touches_pure, List.append_nil]
        rfl
  | case2 cp reached =>
      rw [readUnknown, WireLive.readUnknown, dif_neg reached, dif_neg reached]
      rfl

/-- A blob fits a format if all that is read of it lies inside. -/
structure BlobFits (q : EQStr) (formatid : UInt32) (m : Buffer) : Prop where
  unknown : q.messageStrings formatid.toInt32 = [] → WireLive.ArgumentsLie m 0 m.length 0
  known : q.messageStrings formatid.toInt32 ≠ [] → ArgumentsInside m 0

theorem within_formatMessage (rounds : Nat)
    : (formatMessage q stray rounds formatid m.length).Within m ↔ BlobFits q formatid m := by
  rw [formatMessage]
  cases format : q.messageStrings formatid.toInt32 with
  | nil =>
      rw [within_bind, and_iff_left (within_pure _ _), Within, touches_readUnknown]
      have lies := WireLive.within_readUnknown (m := m) (Nat.zero_add m.length) 0
      exact lies.trans ⟨fun lie => ⟨fun _ => lie, fun some => absurd format some⟩,
        fun fits => fits.unknown format⟩
  | cons c rest =>
      have some : q.messageStrings formatid.toInt32 ≠ [] := format ▸ List.cons_ne_nil c rest
      rw [within_bind, and_iff_left (within_pure _ _), within_readArgList]
      exact ⟨fun inside => ⟨fun none => absurd none some, fun _ => inside⟩,
        fun fits => fits.known some⟩

/-- The arguments that a blob holds from `total` on, without the empty ones. -/
inductive Holds (m : Buffer) : Nat → List (List Char) → Prop
  | done {total : Nat} (reached : m.length ≤ total) : Holds m total []
  | empty {total : Nat} {args : List (List Char)} (left : total < m.length)
      (empty : WireLive.argumentSize m total = 0) (rest : Holds m (total + 4) args) :
      Holds m total args
  | next {total : Nat} {args : List (List Char)} (left : total < m.length)
      (filled : 0 < WireLive.argumentSize m total)
      (moves : 0 < (WireLive.argumentSize m total + 4).toNat)
      (rest : Holds m (total + (WireLive.argumentSize m total + 4).toNat) args) :
      Holds m total
        (Utf8.fromUtf8 (m.slice (total + 4) (WireLive.argumentSize m total).toNat) :: args)

theorem value_readArgument {curArg : Nat} {curSize : UInt32}
    : (readArgument curArg curSize).value m
      = if 0 < curSize then [Utf8.fromUtf8 (m.slice curArg curSize.toNat)] else [] := by
  rw [readArgument]
  split <;> rfl

/-- The loop collects what the blob holds. -/
theorem value_readArgList_eq_some {total : Nat}
    : (readArgList m.length total).value m = some argList ↔ Holds m total argList := by
  induction total using readArgList.induct m.length generalizing argList with
  | case1 total left ih =>
      rw [readArgList, dif_pos left, value_bind, value_bind, value_readArgument]
      have read : (WireLive.u32 total).value m = WireLive.argumentSize m total := rfl
      rw [read]
      by_cases moves : 0 < (WireLive.argumentSize m total + 4).toNat <;>
        by_cases filled : 0 < WireLive.argumentSize m total
      · rw [dif_pos moves, if_pos filled, value_bind, value_pure, Option.map_eq_some_iff]
        simp only [ih _ moves]
        constructor
        · rintro ⟨args, rest, rfl⟩
          exact .next left filled moves rest
        · intro holds
          cases holds with
          | done reached => omega
          | empty _ empty _ => exact absurd empty (UInt32.pos_iff_ne_zero.mp filled)
          | next _ _ _ rest => exact ⟨_, rest, rfl⟩
      · have empty : WireLive.argumentSize m total = 0 := by simpa using filled
        rw [dif_pos moves, if_neg filled, value_bind, value_pure, Option.map_eq_some_iff]
        simp only [ih _ moves, List.nil_append, exists_eq_right]
        rw [empty]
        constructor
        · exact fun rest => .empty left empty rest
        · intro holds
          cases holds with
          | done reached => omega
          | empty _ _ rest => exact rest
          | next _ some _ _ => exact absurd some filled
      · rw [dif_neg moves, value_pure]
        refine iff_of_false nofun fun holds => ?_
        cases holds with
        | done reached => omega
        | empty _ empty _ => exact absurd empty (UInt32.pos_iff_ne_zero.mp filled)
        | next _ _ some _ => exact absurd some moves
      · have empty : WireLive.argumentSize m total = 0 := by simpa using filled
        exact absurd (by rw [empty]; decide) moves
  | case2 total reached =>
      rw [readArgList, dif_neg reached, value_pure, Option.some.injEq]
      constructor
      · rintro rfl
        exact .done (Nat.not_lt.mp reached)
      · intro holds
        cases holds with
        | done _ => rfl
        | empty left _ _ => exact absurd left reached
        | next left _ _ _ => exact absurd left reached

-----------------------------------------------------------------------------------------
-- Lookups inside and outside of the list
-----------------------------------------------------------------------------------------

/-- A placeholder's argument is looked up inside of the list, unless it is numbered zero. -/
theorem lookups_inside_iff {met : List (List Char)}
    : (∀ i ∈ lookups argList met, 0 ≤ i ∧ i < argList.length)
      ↔ ∀ digits ∈ met, 0 < substArg digits := by
  constructor
  · intro inside digits member
    by_contra zero
    have few : substArg digits ≤ argList.length := by omega
    have looked : (substArg digits : Int) - 1 ∈ lookups argList met :=
      List.mem_map.mpr ⟨digits, List.mem_filter.mpr ⟨member, decide_eq_true few⟩, rfl⟩
    have := (inside _ looked).1
    omega
  · intro numbered i looked
    obtain ⟨digits, isLooked, rfl⟩ := List.mem_map.mp looked
    obtain ⟨member, few⟩ := List.mem_filter.mp isLooked
    have positive := numbered digits member
    have := of_decide_eq_true few
    omega

/-- Neither loop comes to a placeholder that is numbered zero. -/
structure MeetsNoZero (q : EQStr) (stray : List Char) (argList : List (List Char))
    (formatStringRes : List Char) : Prop where
  template : ∀ x f, rxt.Reaches (putTemplate q argList stray) formatStringRes x →
    rxt.find x = some f → 0 < substArg f.digits
  argument : ∀ rounds formatString,
    rxt.run (putTemplate q argList stray) rounds formatStringRes = some formatString →
      ∀ x f, rx.Reaches (putArgument argList stray) formatString x →
        rx.find x = some f → 0 < substArg f.digits

/-- What holds of all that is met in some rounds holds of all that is found. -/
theorem forall_met_iff {p : Pattern Char} {put : Rule Char} {text : List Char}
    {good : List Char → Prop}
    : (∀ rounds, ∀ digits ∈ p.met put rounds text, good digits)
      ↔ ∀ x f, p.Reaches put text x → p.find x = some f → good f.digits := by
  constructor
  · intro all x f reaches found
    obtain ⟨rounds, member⟩ := Pattern.exists_mem_met_iff.mpr ⟨x, f, reaches, found, rfl⟩
    exact all rounds _ member
  · intro all rounds digits member
    obtain ⟨x, f, reaches, found, rfl⟩ := Pattern.exists_mem_met_iff.mp ⟨rounds, member⟩
    exact all x f reaches found

theorem formatLookups_inside_iff {formatStringRes : List Char}
    : (∀ rounds, ∀ i ∈ formatLookups q stray argList rounds formatStringRes,
          0 ≤ i ∧ i < argList.length)
      ↔ MeetsNoZero q stray argList formatStringRes := by
  constructor
  · intro inside
    have both := fun rounds => List.forall_mem_append.mp (inside rounds)
    refine ⟨forall_met_iff.mp fun rounds => lookups_inside_iff.mp (both rounds).1,
      fun rounds formatString done => ?_⟩
    have numbered (others : Nat) (digits : List Char)
        (member : digits ∈ rx.met (putArgument argList stray) others formatString)
        : 0 < substArg digits := by
      -- As many rounds as end the first loop, and come as far in the second.
      have looked := (both (max rounds others)).2
      rw [Pattern.run_mono done (Nat.le_max_left rounds others)] at looked
      exact lookups_inside_iff.mp looked digits
        (Pattern.mem_met_mono member (Nat.le_max_right rounds others))
    exact forall_met_iff.mp numbered
  · rintro ⟨first, second⟩ rounds
    refine List.forall_mem_append.mpr
      ⟨lookups_inside_iff.mpr (forall_met_iff.mpr first rounds), ?_⟩
    cases done : rxt.run (putTemplate q argList stray) rounds formatStringRes with
    | none => exact nofun
    | some formatString =>
        exact lookups_inside_iff.mpr (forall_met_iff.mpr (second rounds _ done) rounds)

/-- All lookups find an argument if and only if no loop comes to a placeholder numbered zero. -/
theorem looksUp_iff
    : LooksUp q stray formatid m
      ↔ (q.messageStrings formatid.toInt32 ≠ [] →
          ∀ argList, Holds m 0 argList →
            MeetsNoZero q stray argList (q.messageStrings formatid.toInt32)) := by
  simp only [LooksUp, value_readArgList_eq_some, formatLookups_inside_iff]

end EQStr

-----------------------------------------------------------------------------------------
-- The message shell
-----------------------------------------------------------------------------------------

namespace MessageShell

open WireLive (HEADER_LEN)

/-- The format that `formattedMessage` hands to `formatMessage`, and the length of what it takes
to follow the header.
-/
def formattedMessage (d : Decoder UInt32) (dir : UInt8) (m : UnsizedMessage)
    : Option (UInt32 × Nat) :=
  if dir = DIR_Client then none
  else
    (d.decode m.bytes).map fun message_format =>
      (message_format, toSizeT ((m.length : Int) - HEADER_LEN))

/-- The length that is handed on is that of the rest of the message. -/
def HandsRest (d : Decoder UInt32) (dir : UInt8) (m : UnsizedMessage) : Prop :=
  ∀ message_format messagesLen,
    formattedMessage d dir m = some (message_format, messagesLen) →
      HEADER_LEN + messagesLen = m.length

theorem handsRest_iff {d : Decoder UInt32} {dir : UInt8} {m : UnsizedMessage}
    : HandsRest d dir m
      ↔ (dir ≠ DIR_Client → (d.decode m.bytes).isSome → HEADER_LEN ≤ m.length) := by
  have bound := m.length_le
  have header : HEADER_LEN = 13 := rfl
  have fragment : kMaxFragmentBuffer.toNat < 18446744073709551616 := by decide
  constructor
  · intro rest server accepted
    obtain ⟨format, decoded⟩ := Option.isSome_iff_exists.mp accepted
    have handed : formattedMessage d dir m
        = some (format, toSizeT ((m.length : Int) - HEADER_LEN)) := by
      rw [formattedMessage, if_neg server, decoded]
      rfl
    have whole := rest _ _ handed
    omega
  · intro long format messagesLen handed
    rw [formattedMessage] at handed
    split_ifs at handed with client
    obtain ⟨other, decoded, same⟩ := Option.map_eq_some_iff.mp handed
    obtain ⟨-, rfl⟩ := Prod.mk.inj same
    have fits := long client (Option.isSome_iff_exists.mpr ⟨_, decoded⟩)
    simp only [toSizeT]
    omega

end MessageShell

namespace EQStr

/-- What is read of a blob lies inside of it, and what is looked up inside of the list, exactly
where the sizes stay inside and no loop comes to a placeholder numbered zero; the length that
the message shell hands on is right exactly where an accepted message has its header.
-/
theorem formatMessage_inside_iff (q : EQStr) (stray : List Char) (formatid : UInt32) (m : Buffer)
    (d : Decoder UInt32) (dir : UInt8) (message : UnsizedMessage)
    : ((∀ rounds, (formatMessage q stray rounds formatid m.length).Within m)
          ∧ LooksUp q stray formatid m
        ↔ BlobFits q formatid m
          ∧ (q.messageStrings formatid.toInt32 ≠ [] →
              ∀ argList, Holds m 0 argList →
                MeetsNoZero q stray argList (q.messageStrings formatid.toInt32)))
      ∧ (MessageShell.HandsRest d dir message
        ↔ (dir ≠ DIR_Client → (d.decode message.bytes).isSome →
            WireLive.HEADER_LEN ≤ message.length)) := by
  refine ⟨and_congr ?_ looksUp_iff, MessageShell.handsRest_iff⟩
  simp only [within_formatMessage, forall_const]

/-- The argument of a blob that ends inside of it is read behind the blob. -/
theorem not_formatMessage_inside
    : ¬ ∀ (q : EQStr) (stray : List Char) (formatid : UInt32) (m : Buffer) (d : Decoder UInt32)
        (dir : UInt8) (message : UnsizedMessage),
        ((∀ rounds, (formatMessage q stray rounds formatid m.length).Within m)
            ∧ LooksUp q stray formatid m)
          ∧ MessageShell.HandsRest d dir message := by
  intro always
  let m : Buffer := ⟨[5, 0, 0, 0, 0x48], fun _ => 0⟩
  have within := (always ⟨fun _ => "%1".toList⟩ [] 1 m (.sized 0 0) DIR_Server
    ⟨⟨[], fun _ => 0⟩, Nat.zero_le _⟩).1.1 0
  -- The size promises five bytes of text, of which the blob has one.
  have inside : ArgumentsInside m 0 := ((within_formatMessage 0).mp within).known (by decide)
  cases inside with
  | done reached => exact absurd reached (by decide)
  | stays fits _ => exact absurd fits (by decide)
  | next fits _ => exact absurd fits (by decide)

end EQStr

end Scry
