import Mathlib.Algebra.Order.Field.Rat
import Mathlib.Tactic.Linarith
import Mathlib.Tactic.NormNum
import Scry.Library.Machine

/-! The rate limit on what a client sends. A bucket is refilled by the clock and pays for each
message, so that what is accepted in a stretch is bounded by what the clock refilled.
-/

namespace Scry

/-- The bucket of a session. Its tokens are exact numbers here. -/
structure RateLimit where
  bucketLastMs : Int
  bucketTokens : ℚ
  rateLimitWarned : Bool
  deriving DecidableEq

namespace RateLimit

def kTokensPerSec : ℚ := 30

def kBucketCap : ℚ := 60

def fresh : RateLimit := { bucketLastMs := 0, bucketTokens := 0, rateLimitWarned := false }

/-- The tokens of a reading, before they are capped. A reading of zero is taken for none. -/
def credited (b : RateLimit) (now : Int) : ℚ :=
  if b.bucketLastMs = 0 then kBucketCap
  else b.bucketTokens + (now - b.bucketLastMs) * kTokensPerSec / 1000

/-- The cap is on one side only. -/
def refilled (b : RateLimit) (now : Int) : ℚ := min (b.credited now) kBucketCap

/-- A message is accepted if there is a token for it. -/
def accepts (b : RateLimit) (now : Int) : Bool := 1 ≤ b.refilled now

/-- `handleClientBinary` up to where it parses the message. -/
def handleClientBinary (now : Int) (b : RateLimit) : RateLimit :=
  { bucketLastMs := now
    bucketTokens := if b.accepts now then b.refilled now - 1 else b.refilled now
    rateLimitWarned := !b.accepts now }

/-- How many messages are accepted, of those that come at some readings. -/
def accepted (b : RateLimit) : List Int → Nat
  | [] => 0
  | now :: later =>
      (if b.accepts now then 1 else 0) + (b.handleClientBinary now).accepted later

/-- The bucket after some readings. -/
abbrev after (b : RateLimit) (readings : List Int) : RateLimit :=
  Machine.exec handleClientBinary b readings

/-- The level of a bucket between empty and full. -/
def Level (b : RateLimit) : Prop := 0 ≤ b.bucketTokens ∧ b.bucketTokens ≤ kBucketCap

/-- The limit is honest about the messages of a session: the level is right throughout, a
stretch has no more messages accepted than the clock pays for, and whoever waited long enough is
heard.
-/
structure Honest (readings : List Int) : Prop where
  level : Machine.Always handleClientBinary Level fresh readings
  stretch : ∀ before first later behind, readings = before ++ first :: later ++ behind →
    ((fresh.after before).accepted (first :: later) : ℚ)
      ≤ 60 + 30 * (((first :: later).getLast (List.cons_ne_nil _ _) - first : Int) : ℚ) / 1000 + 1
  heard : ∀ before last now behind, readings = before ++ last :: now :: behind →
    1 / 30 ≤ ((now - last : Int) : ℚ) / 1000 →
      (fresh.after (before ++ [last])).accepts now = true

/-- A reading that does not take back more than the tokens are worth. -/
def Affordable (b : RateLimit) (now : Int) : Prop := 0 ≤ b.credited now

-----------------------------------------------------------------------------------------
-- One message
-----------------------------------------------------------------------------------------

variable {b : RateLimit} {now first : Int} {later readings : List Int}

theorem refilled_le (b : RateLimit) (now : Int) : b.refilled now ≤ kBucketCap := min_le_right _ _

theorem accepts_iff : b.accepts now = true ↔ 1 ≤ b.refilled now := decide_eq_true_iff

/-- A message takes a token if it is accepted. -/
theorem tokens_handle (b : RateLimit) (now : Int)
    : (b.handleClientBinary now).bucketTokens
      = b.refilled now - if b.accepts now then 1 else 0 := by
  rw [handleClientBinary]
  dsimp only
  split_ifs
  · rfl
  · rw [sub_zero]

/-- The level after a message is right exactly where the reading was affordable. -/
theorem level_handle_iff (b : RateLimit) (now : Int)
    : (b.handleClientBinary now).Level ↔ b.Affordable now := by
  have full := refilled_le b now
  have cap : (0 : ℚ) ≤ kBucketCap := by norm_num [kBucketCap]
  have level : 0 ≤ b.refilled now ↔ b.Affordable now := by
    rw [refilled, le_min_iff, and_iff_left cap]
    rfl
  rw [Level, tokens_handle, ← level]
  by_cases one : 1 ≤ b.refilled now
  · rw [if_pos (accepts_iff.mpr one)]
    constructor
    · intro _
      linarith
    · intro _
      constructor <;> linarith
  · rw [if_neg (mt accepts_iff.mp one), sub_zero, and_iff_left full]

/-- Between two messages the clock pays thirty tokens a second. -/
theorem credited_handle (b : RateLimit) (running : first ≠ 0) (now : Int)
    : (b.handleClientBinary first).credited now
      = (b.handleClientBinary first).bucketTokens + (now - first) * kTokensPerSec / 1000 :=
  if_neg running

-----------------------------------------------------------------------------------------
-- All messages
-----------------------------------------------------------------------------------------

/-- What is accepted in a stretch, and what is left, was there or was paid by the clock. By
induction on the later messages.
-/
theorem accepted_le (running : ∀ t ∈ first :: later, t ≠ 0)
    : ((b.accepted (first :: later) : ℚ) + (b.after (first :: later)).bucketTokens)
      ≤ b.refilled first
        + 30 * (((first :: later).getLast (List.cons_ne_nil _ _) - first : Int) : ℚ) / 1000 := by
  induction later generalizing b first with
  | nil =>
      have left := tokens_handle b first
      change ((b.accepted [first] : ℚ) + (b.handleClientBinary first).bucketTokens) ≤ _
      rw [left, accepted, accepted]
      simp
  | cons second later ih =>
      have rest := @ih (b.handleClientBinary first) second
        fun t member => running t (List.mem_cons_of_mem first member)
      have paid : (b.handleClientBinary first).refilled second
          ≤ (b.handleClientBinary first).bucketTokens + (second - first) * kTokensPerSec / 1000 :=
        (min_le_left _ _).trans_eq (credited_handle b (running first List.mem_cons_self) second)
      have taken
          : ((if b.accepts first then 1 else 0 : Nat) : ℚ) = if b.accepts first then 1 else 0 := by
        split_ifs <;> simp
      rw [tokens_handle] at paid
      rw [List.getLast_cons (List.cons_ne_nil _ _), accepted, Nat.cast_add, taken]
      change _ + ((b.handleClientBinary first).after (second :: later)).bucketTokens ≤ _
      simp only [kTokensPerSec] at paid
      push_cast at rest ⊢
      linarith

/-- A level that is right throughout bounds every stretch. -/
theorem accepted_stretch_le {before behind : List Int} (nonzero : (0 : Int) ∉ readings)
    (level : Machine.Always handleClientBinary Level fresh readings)
    (split : readings = before ++ first :: later ++ behind)
    : ((fresh.after before).accepted (first :: later) : ℚ)
      ≤ 60 + 30 * (((first :: later).getLast (List.cons_ne_nil _ _) - first : Int) : ℚ) / 1000
        + 1 := by
  have running (t : Int) (member : t ∈ first :: later) : t ≠ 0 := by
    rintro rfl
    refine nonzero (split ▸ ?_)
    exact List.mem_append_left _ (List.mem_append_right _ member)
  have bound := accepted_le (b := fresh.after before) running
  have full := refilled_le (fresh.after before) first
  rw [split] at level
  have left := level.after.1
  rw [Machine.exec_append] at left
  simp only [kBucketCap] at full
  linarith

/-- A client that waited for a thirtieth of a second has a token, if the bucket was not
overdrawn.
-/
theorem accepts_of_waited (running : first ≠ 0) (level : (b.handleClientBinary first).Level)
    (waited : 1 / 30 ≤ ((now - first : Int) : ℚ) / 1000)
    : (b.handleClientBinary first).accepts now = true := by
  have cap : (1 : ℚ) ≤ kBucketCap := by norm_num [kBucketCap]
  have left := level.1
  rw [accepts_iff, refilled, le_min_iff, and_iff_left cap, credited_handle b running]
  simp only [kTokensPerSec]
  push_cast at waited
  linarith

/-- The limit is honest where no reading takes back more than the tokens are worth, or is zero;
and only where none takes back more.
-/
theorem honest_readings (readings : List Int)
    : (Machine.Permits handleClientBinary Affordable fresh readings ∧ (0 : Int) ∉ readings
        → Honest readings)
      ∧ (Honest readings → Machine.Permits handleClientBinary Affordable fresh readings) := by
  have start : fresh.Level := ⟨le_refl _, by norm_num [fresh, kBucketCap]⟩
  have level
      : Machine.Always handleClientBinary Level fresh readings
        ↔ Machine.Permits handleClientBinary Affordable fresh readings :=
    Machine.always_iff_permits (W := fun _ => True) trivial start (fun _ _ _ => trivial)
      fun b now _ _ => level_handle_iff b now
  constructor
  · rintro ⟨permits, nonzero⟩
    have always := level.mpr permits
    refine ⟨always, fun before first later behind split =>
      accepted_stretch_le nonzero always split, fun before last now behind split waited => ?_⟩
    have running : last ≠ 0 := by
      rintro rfl
      exact nonzero (split ▸ List.mem_append_right _ List.mem_cons_self)
    have levels := always
    rw [split, List.append_cons] at levels
    have here := levels.after
    rw [Machine.exec_append] at here
    rw [after, Machine.exec_append]
    exact accepts_of_waited running here waited
  · exact fun honest => level.mp honest.level

/-- The first message of a session leaves all other tokens. -/
theorem tokens_first (now : Int) : (fresh.handleClientBinary now).bucketTokens = 59 := by
  have full : fresh.refilled now = 60 := by simp [refilled, credited, fresh, kBucketCap]
  rw [tokens_handle, full, if_pos (accepts_iff.mpr (by rw [full]; norm_num))]
  norm_num

/-- A clock that is set back by a second after the first message leaves enough tokens. -/
theorem honest_readings_setBack : Honest [100000, 99000] := by
  refine (honest_readings [100000, 99000]).1 ⟨⟨?_, ?_, trivial⟩, by decide⟩
  · norm_num [Affordable, credited, fresh, kBucketCap]
  · rw [Affordable, credited_handle fresh (by decide), tokens_first]
    norm_num [kTokensPerSec]

/-- A clock that is set back by more than two seconds leaves a debt. -/
theorem not_honest_readings : ¬ ∀ readings, Honest readings := by
  intro always
  have level := (always [100000, 90000]).level.2.2
  have paid := (level_handle_iff _ _).mp level
  rw [Affordable, credited_handle fresh (by decide), tokens_first] at paid
  norm_num [kTokensPerSec] at paid

end RateLimit

end Scry
