import Scry.Library.Replacement
import Scry.Messages.FormatMessage

/-! What the formatting of messages is for: the placeholders of a string are replaced all at once,
those for other strings first. The two loops do so unless they leave a placeholder out, come back
to what they put in, or count the arguments without the empty ones.
-/

namespace Scry

open Reading Rescan

namespace EQStr

-----------------------------------------------------------------------------------------
-- Arguments that are packed into a blob
-----------------------------------------------------------------------------------------

/-- An argument behind its size, which is a `quint32`. -/
def packed (a : List Char) : List UInt8 :=
  LittleEndian.encode 4 (Utf8.toUtf8 a).length ++ Utf8.toUtf8 a

def blob (args : List (List Char)) : List UInt8 := args.flatMap packed

/-- An argument without the markers of links. -/
def unmarked (raw : List Char) : List Char := raw.filter (· ≠ '\x12')

variable (q : EQStr) (stray : List Char) (beyond : Nat → UInt8) (formatid : UInt32)
  (args : List (List Char))

/-- `formatMessage` over a list of arguments, which packs them into a blob. -/
def formatMessageList (rounds : Nat) : Option (List Char) :=
  let m : Buffer := ⟨blob (args.map unmarked), beyond⟩
  (formatMessage q stray rounds formatid m.length).value m

/-- The arguments that come out of a blob. -/
def received : List (List Char) := (args.filter (· ≠ [])).map Utf8.withoutMark

/-- The size of an argument leaves room for the four bytes before it. -/
def Sized (a : List Char) : Prop := (Utf8.toUtf8 a).length + 4 < 4294967296

instance decidableSized (a : List Char) : Decidable (Sized a) :=
  inferInstanceAs (Decidable (_ < _))

-----------------------------------------------------------------------------------------
-- Replacing at once
-----------------------------------------------------------------------------------------

/-- The argument that the digits of a placeholder name; one that is missing is empty. -/
def named (digits : List Char) : List Char := args.getD (substArg digits - 1) []

/-- The string whose number an argument is. -/
def tableString (arg : List Char) : List Char :=
  match Decimal.signed? 32 arg with
  | none => []
  | some number => q.messageStrings (Int32.ofInt number)

/-- A text with the strings that its `%T` placeholders name. -/
def withTemplates (text : List Char) : List Char :=
  rxt.replaceAll (fun digits => q.tableString (named args digits)) text

/-- A text with the arguments that its placeholders name. -/
def withArguments (text : List Char) : List Char :=
  rx.replaceAll (fun digits => plainArgument (named args digits)) text

/-- A text with all of its placeholders replaced. -/
def substituted (text : List Char) : List Char :=
  withArguments args (q.withTemplates args text)

/-- No placeholder of a text is numbered zero. -/
def Numbered (p : Pattern Char) (text : List Char) : Prop :=
  ∀ x ∈ text.tails, ∀ digits ∈ p.digitsAt x, 0 < substArg digits

instance decidableNumbered (p : Pattern Char) (text : List Char) : Decidable (Numbered p text) :=
  inferInstanceAs (Decidable (∀ x ∈ text.tails, ∀ digits ∈ p.digitsAt x, 0 < substArg digits))

/-- The two overloads of `formatMessage` end, and yield the text with its placeholders replaced.
-/
structure Substitutes : Prop where
  list : ∃ rounds, formatMessageList q stray beyond formatid args rounds
    = some (q.substituted args (q.messageStrings formatid.toInt32))
  raw : ∃ rounds,
    (formatMessage q stray rounds formatid (blob args).length).value ⟨blob args, beyond⟩
      = some (q.substituted args (q.messageStrings formatid.toInt32))

variable {q stray beyond formatid args} {argList : List (List Char)} {digits : List Char}

-----------------------------------------------------------------------------------------
-- What comes out of a blob
-----------------------------------------------------------------------------------------

theorem toUtf8_eq_nil_iff {a : List Char} : Utf8.toUtf8 a = [] ↔ a = [] := by
  constructor
  · intro none
    have same := Utf8.decode_toUtf8 a
    rw [none] at same
    exact same.symm
  · rintro rfl
    rfl

theorem blob_cons (a : List Char) (args : List (List Char))
    : blob (a :: args) = packed a ++ blob args :=
  rfl

theorem length_packed (a : List Char) : (packed a).length = 4 + (Utf8.toUtf8 a).length := by
  rw [packed, List.length_append, LittleEndian.length_encode]

/-- The size before an argument is read as it was written. -/
theorem argumentSize_packed (beyond : Nat → UInt8) (before after : List UInt8) {a : List Char}
    (sized : Sized a)
    : (WireLive.argumentSize ⟨before ++ (packed a ++ after), beyond⟩ before.length).toNat
      = (Utf8.toUtf8 a).length := by
  let m : Buffer := ⟨before ++ (packed a ++ after), beyond⟩
  have inside : before.length + 4 ≤ m.length := by
    simp only [Buffer.length, List.length_append, length_packed, m]
    omega
  have bytes : m.slice before.length 4 = LittleEndian.encode 4 (Utf8.toUtf8 a).length := by
    rw [Buffer.slice_eq inside, List.drop_left, packed, List.append_assoc,
      List.take_append_of_le_length (Nat.le_of_eq (LittleEndian.length_encode 4 _).symm),
      List.take_of_length_le (Nat.le_of_eq (LittleEndian.length_encode 4 _))]
  change (UInt32.ofNat (LittleEndian.decode (m.slice before.length 4))).toNat = _
  rw [bytes, LittleEndian.decode_encode, UInt32.toNat_ofNat']
  rw [Sized] at sized
  omega

/-- So is the argument. -/
theorem slice_packed (beyond : Nat → UInt8) (before after : List UInt8) (a : List Char)
    : (Buffer.mk (before ++ (packed a ++ after)) beyond).slice (before.length + 4)
        (Utf8.toUtf8 a).length
      = Utf8.toUtf8 a := by
  have inside : before.length + 4 + (Utf8.toUtf8 a).length
      ≤ (before ++ (packed a ++ after)).length := by
    simp only [List.length_append, length_packed]
    omega
  have split : before ++ (packed a ++ after)
      = (before ++ LittleEndian.encode 4 (Utf8.toUtf8 a).length) ++ (Utf8.toUtf8 a ++ after) := by
    rw [packed]
    simp only [List.append_assoc]
  have start : (before ++ LittleEndian.encode 4 (Utf8.toUtf8 a).length).length
      = before.length + 4 := by
    rw [List.length_append, LittleEndian.length_encode]
  rw [Buffer.slice_eq inside]
  dsimp only
  rw [split, ← start, List.drop_left, List.take_left]

/-- A blob holds the arguments that were packed into it, without the empty ones. By induction on
the arguments.
-/
theorem holds_blob (sized : ∀ a ∈ args, Sized a) (before : List UInt8)
    : Holds ⟨before ++ blob args, beyond⟩ before.length (received args) := by
  induction args generalizing before with
  | nil => exact .done (Nat.le_of_eq (congrArg List.length (List.append_nil before)))
  | cons a args ih =>
      have rest := ih (fun b member => sized b (List.mem_cons_of_mem a member)) (before ++ packed a)
      have fits := sized a List.mem_cons_self
      have size := argumentSize_packed beyond before (blob args) fits
      have text := slice_packed beyond before (blob args) a
      have length : (before ++ packed a).length = before.length + 4 + (Utf8.toUtf8 a).length := by
        rw [List.length_append, length_packed, Nat.add_assoc]
      have left : before.length < (before ++ (packed a ++ blob args)).length := by
        rw [← List.append_assoc, List.length_append, length]
        omega
      rw [List.append_assoc, length] at rest
      rw [blob_cons]
      by_cases empty : a = []
      · subst empty
        exact .empty left (UInt32.toNat_inj.mp size) rest
      · have filled := List.length_pos_iff.mpr (mt toUtf8_eq_nil_iff.mp empty)
        have sum := WireLive.toNat_add_four _ (lt_of_eq_of_lt (congrArg (· + 4) size) fits)
        have kept : received (a :: args) = Utf8.withoutMark a :: received args := by
          simp [received, empty]
        rw [kept, ← Utf8.fromUtf8_toUtf8, ← text, ← size]
        refine .next left (UInt32.lt_iff_toNat_lt.mpr (lt_of_lt_of_eq filled size.symm)) ?_ ?_
        · exact lt_of_lt_of_eq (Nat.succ_pos _) sum.symm
        · rw [sum, size, Nat.add_comm _ 4, ← Nat.add_assoc]
          exact rest

-----------------------------------------------------------------------------------------
-- What is put in
-----------------------------------------------------------------------------------------

/-- A placeholder that is not numbered zero finds the argument that it names. -/
theorem argument_eq (numbered : 0 < substArg digits)
    : argument argList stray (substArg digits) = argList[substArg digits - 1]? := by
  obtain ⟨i, number⟩ := Nat.exists_eq_succ_of_ne_zero (Nat.ne_of_gt numbered)
  rw [number]
  change (if i + 1 ≤ argList.length then argList[i]? else none) = argList[i]?
  split_ifs with few
  · rfl
  · exact (List.getElem?_eq_none (Nat.le_of_lt_succ (Nat.not_le.mp few))).symm

theorem named_eq (argList : List (List Char)) (digits : List Char)
    : named argList digits = argList[substArg digits - 1]?.getD [] :=
  List.getD_eq_getElem?_getD

theorem fst_putTemplate (numbered : 0 < substArg digits)
    : (putTemplate q argList stray digits).1 = q.tableString (named argList digits) := by
  have brought : (putTemplate q argList stray digits).1
      = substFormatString q argList stray digits := by
    rw [putTemplate]
    cases substFormatString q argList stray digits <;> rfl
  rw [brought, substFormatString, argument_eq numbered, named_eq]
  cases argList[substArg digits - 1]? <;> rfl

theorem fst_putArgument (numbered : 0 < substArg digits)
    : (putArgument argList stray digits).1 = plainArgument (named argList digits) := by
  rw [putArgument, argument_eq numbered, named_eq]
  cases argList[substArg digits - 1]? <;> rfl

/-- A text without a placeholder numbered zero does not show what such a one would bring. -/
theorem Numbered.congr {p : Pattern Char} {text : List Char} (numbered : Numbered p text)
    {sub other : List Char → List Char}
    (same : ∀ digits, 0 < substArg digits → sub digits = other digits)
    : p.replaceAll sub text = p.replaceAll other text :=
  Pattern.replaceAll_congr fun x isEnd digits here =>
    same digits (numbered x ((List.mem_tails _ _).mpr isEnd) digits here)

theorem mem_plainArgument {c : Char} {sub : List Char} (member : c ∈ plainArgument sub)
    : c ∈ sub := by
  rw [plainArgument] at member
  split_ifs at member
  · have part : c ∈ (sub.reverse.takeWhile (· ≠ '^')).reverse := by
      split at member
      · next rest same => rw [same]; exact List.mem_cons_of_mem _ member
      · exact member
    exact List.mem_reverse.mp (List.takeWhile_subset _ (List.mem_reverse.mp part))
  · exact member

theorem mem_named {c : Char} (member : c ∈ named args digits) : ∃ a ∈ args, c ∈ a := by
  rw [named_eq] at member
  cases found : args[substArg digits - 1]? with
  | none =>
      rw [found] at member
      exact nomatch member
  | some a =>
      rw [found] at member
      exact ⟨a, List.mem_of_getElem? found, member⟩

/-- What comes out of a blob was put into it. -/
theorem mem_received {c : Char} (member : ∃ a ∈ received args, c ∈ a) : ∃ a ∈ args, c ∈ a := by
  obtain ⟨_, held, isIn⟩ := member
  obtain ⟨a, kept, rfl⟩ := List.mem_map.mp held
  exact ⟨a, List.mem_of_mem_filter kept, (Utf8.withoutMark_suffix a).mem isIn⟩

theorem heads_rx : rx.Heads '%' := ⟨⟨[], rfl, nofun⟩, rfl⟩

-----------------------------------------------------------------------------------------
-- The loops over what comes out of a blob
-----------------------------------------------------------------------------------------

theorem formatMessage_blob (stray : List Char) (beyond : Nat → UInt8)
    (some : q.messageStrings formatid.toInt32 ≠ [])
    (sized : ∀ a ∈ args, Sized a) (rounds : Nat)
    : (formatMessage q stray rounds formatid (blob args).length).value ⟨blob args, beyond⟩
      = formatLoops q (received args) stray rounds (q.messageStrings formatid.toInt32) := by
  let m : Buffer := ⟨blob args, beyond⟩
  have held : (readArgList m.length 0).value m = .some (received args) :=
    value_readArgList_eq_some.mpr (holds_blob sized [])
  rw [formatMessage]
  cases format : q.messageStrings formatid.toInt32 with
  | nil => exact absurd format some
  | cons c rest =>
      change ((readArgList m.length 0).value m).bind _ = _
      rw [held]
      rfl

/-- The text of an unknown format is never empty. -/
theorem formatMessage_unknown (none : q.messageStrings formatid.toInt32 = []) (rounds : Nat)
    (m : Buffer)
    : (formatMessage q stray rounds formatid m.length).value m ≠ some [] := by
  rw [formatMessage, none]
  exact fun same => List.cons_ne_nil _ _ (Option.some.inj same)

/-- After the first loop it rests with the second. -/
theorem formatLoops_iff {text formatString done : List Char}
    (first : ∃ rounds, rxt.run (putTemplate q argList stray) rounds text = some formatString)
    : (∃ rounds, formatLoops q argList stray rounds text = some done)
      ↔ ∃ rounds, rx.run (putArgument argList stray) rounds formatString = some done := by
  obtain ⟨rounds, isFirst⟩ := first
  constructor
  · rintro ⟨others, both⟩
    obtain ⟨other, again, second⟩ := Option.bind_eq_some_iff.mp both
    obtain rfl := Pattern.run_unique again isFirst
    exact ⟨others, second⟩
  · rintro ⟨others, second⟩
    refine ⟨max rounds others, ?_⟩
    rw [formatLoops, Pattern.run_mono isFirst (Nat.le_max_left _ _)]
    exact Pattern.run_mono second (Nat.le_max_right _ _)

-----------------------------------------------------------------------------------------
-- Both loops
-----------------------------------------------------------------------------------------

variable (q stray args) in
/-- The first loop passes every placeholder, and empty arguments do not matter to it. -/
structure TemplatesPass (text : List Char) : Prop where
  sized : ∀ a ∈ args, Sized a
  quiet : rxt.Quiet (putTemplate q (received args) stray) text
  same : q.withTemplates (received args) text = q.withTemplates args text

variable (q stray args) in
/-- There is a string, the second loop passes every placeholder, and empty arguments do not
matter to it.
-/
structure ArgumentsPass (text : List Char) : Prop where
  some : text ≠ []
  quiet : rx.Quiet (putArgument (received args) stray) (q.withTemplates args text)
  same : withArguments (received args) (q.withTemplates args text)
    = withArguments args (q.withTemplates args text)

variable {text : List Char}

/-- Without `%T` placeholders there is nothing for the first loop to do. -/
theorem templatesPass_of_find_eq_none (none : rxt.find text = .none) (sized : ∀ a ∈ args, Sized a)
    : TemplatesPass q stray args text where
  sized := sized
  quiet := .last none
  same := by
    rw [withTemplates, withTemplates, Pattern.replaceAll_of_find_eq_none none,
      Pattern.replaceAll_of_find_eq_none none]

theorem TemplatesPass.run (pass : TemplatesPass q stray args text) (numbered : Numbered rxt text)
    : ∃ rounds, rxt.run (putTemplate q (received args) stray) rounds text
        = some (q.withTemplates args text) := by
  have replaced : rxt.replaceAll (fun digits => (putTemplate q (received args) stray digits).1) text
      = q.withTemplates (received args) text :=
    numbered.congr fun digits positive => fst_putTemplate positive
  rw [← pass.same, ← replaced]
  exact Pattern.run_of_quiet pass.quiet

/-- The second loop replaces all placeholders at once if and only if it passes them all and empty
arguments do not matter.
-/
theorem run_eq_withArguments_iff (stray : List Char) (plain : ∀ a ∈ args, '%' ∉ a)
    (numbered : Numbered rx text)
    : (∃ rounds, rx.run (putArgument (received args) stray) rounds text
          = some (withArguments args text))
      ↔ rx.Quiet (putArgument (received args) stray) text
        ∧ withArguments (received args) text = withArguments args text := by
  have clear : rx.Clear (putArgument (received args) stray) '%' text := by
    intro x isEnd digits here member
    rw [fst_putArgument (numbered x ((List.mem_tails _ _).mpr isEnd) digits here)] at member
    obtain ⟨a, isArg, isIn⟩ := mem_received (mem_named (mem_plainArgument member))
    exact plain a isArg isIn
  have others (digits : List Char) : '%' ∉ plainArgument (named args digits) := by
    intro member
    obtain ⟨a, isArg, isIn⟩ := mem_named (mem_plainArgument member)
    exact plain a isArg isIn
  have replaced : rx.replaceAll (fun digits => (putArgument (received args) stray digits).1) text
      = withArguments (received args) text :=
    numbered.congr fun digits positive => fst_putArgument positive
  rw [← replaced]
  exact heads_rx.run_eq_replaceAll_iff clear fun _ _ digits _ => others digits

/-- A placeholder is passed if its argument begins with a character of one unit. -/
theorem passes_of_filled {f : Found Char} (numbered : 0 < substArg f.digits)
    (plain : '%' ∉ plainArgument (named argList f.digits))
    (filled : (plainArgument (named argList f.digits)).head?.any (units · = 1) = true)
    : rx.Passes (putArgument argList stray) f := by
  have found : argument argList stray (substArg f.digits) = argList[substArg f.digits - 1]? :=
    argument_eq numbered
  rw [named_eq] at plain filled
  cases held : argList[substArg f.digits - 1]? with
  | none =>
      rw [held] at filled
      exact nomatch filled
  | some sub =>
      rw [held, Option.getD_some] at plain filled
      have brought : putArgument argList stray f.digits = (plainArgument sub, 1) := by
        rw [putArgument, found, held]
      cases text : plainArgument sub with
      | nil =>
          rw [text] at filled
          exact nomatch filled
      | cons c rest =>
          rw [text] at plain filled
          have unit : units c = 1 := of_decide_eq_true filled
          have skipped : rx.skip 1 (c :: rest ++ f.after) = some (rest ++ f.after) := by
            change (if units c ≤ 1 then rx.skip (1 - units c) (rest ++ f.after) else none) = _
            rw [unit]
            exact Pattern.skip_zero _
          rw [← text] at skipped
          refine Pattern.passes_of_before ?_ rfl
            (heads_rx.free fun member => plain (List.mem_cons_of_mem c member))
          rw [brought]
          exact skipped

/-- Arguments that are there and begin with a character of one unit are put in at once. -/
theorem quiet_of_filled (plain : ∀ a ∈ argList, '%' ∉ a) (numbered : Numbered rx text)
    (filled : ∀ x ∈ text.tails, ∀ digits ∈ rx.digitsAt x,
      (plainArgument (named argList digits)).head?.any (units · = 1) = true)
    : rx.Quiet (putArgument argList stray) text := by
  induction text using Pattern.found_induction (p := rx) with
  | last text none => exact .last none
  | next text f found ih =>
      obtain ⟨whole, here, -⟩ := Pattern.split_of_find found
      have isEnd := (List.mem_tails _ _).mpr (whole ▸ List.suffix_append f.before _)
      have behind (x : List Char) (later : x ∈ f.after.tails) : x ∈ text.tails :=
        (List.mem_tails _ _).mpr
          (((List.mem_tails _ _).mp later).trans (Pattern.after_suffix found))
      refine .next found (passes_of_filled (numbered _ isEnd _ here) ?_ (filled _ isEnd _ here))
        (ih (fun x later => numbered x (behind x later)) fun x later => filled x (behind x later))
      intro member
      obtain ⟨a, isArg, isIn⟩ := mem_named (mem_plainArgument member)
      exact plain a isArg isIn

/-- Arguments without markers are packed as they are. -/
theorem map_unmarked (unmarkedArgs : ∀ a ∈ args, '\x12' ∉ a) : args.map unmarked = args := by
  have each (a : List Char) (member : a ∈ args) : unmarked a = id a :=
    List.filter_eq_self.mpr fun c isIn =>
      decide_eq_true fun same => unmarkedArgs a member (same ▸ isIn)
  rw [List.map_congr_left each, List.map_id]

/-- Both overloads come down to the loops. -/
theorem substitutes_iff (some : q.messageStrings formatid.toInt32 ≠ [])
    (sized : ∀ a ∈ args, Sized a) (markers : ∀ a ∈ args, '\x12' ∉ a)
    : Substitutes q stray beyond formatid args
      ↔ ∃ rounds, formatLoops q (received args) stray rounds (q.messageStrings formatid.toInt32)
          = .some (q.substituted args (q.messageStrings formatid.toInt32)) := by
  constructor
  · rintro ⟨-, rounds, done⟩
    exact ⟨rounds, formatMessage_blob stray beyond some sized rounds ▸ done⟩
  · rintro ⟨rounds, done⟩
    have raw := (formatMessage_blob stray beyond some sized rounds).trans done
    refine ⟨⟨rounds, ?_⟩, ⟨rounds, raw⟩⟩
    rw [formatMessageList, map_unmarked markers]
    exact raw

/-- Formatting is substitution where both loops pass; where the first one passes, it is so only
if the second one does.
-/
theorem formatMessage_substitutes (q : EQStr) (stray : List Char) (beyond : Nat → UInt8)
    (formatid : UInt32) (args : List (List Char))
    (plain : ∀ a ∈ args, '\x12' ∉ a ∧ '%' ∉ a)
    (numbered : Numbered rxt (q.messageStrings formatid.toInt32))
    (numberedArguments : Numbered rx (q.withTemplates args (q.messageStrings formatid.toInt32)))
    : (TemplatesPass q stray args (q.messageStrings formatid.toInt32)
          ∧ ArgumentsPass q stray args (q.messageStrings formatid.toInt32)
        → Substitutes q stray beyond formatid args)
      ∧ (TemplatesPass q stray args (q.messageStrings formatid.toInt32)
        → Substitutes q stray beyond formatid args
        → ArgumentsPass q stray args (q.messageStrings formatid.toInt32)) := by
  have loops := run_eq_withArguments_iff stray (fun a member => (plain a member).2)
    numberedArguments
  constructor
  · rintro ⟨templates, arguments⟩
    rw [substitutes_iff arguments.some templates.sized fun a member => (plain a member).1,
      formatLoops_iff (templates.run numbered), substituted, loops]
    exact ⟨arguments.quiet, arguments.same⟩
  · intro templates substitutes
    have some : q.messageStrings formatid.toInt32 ≠ [] := by
      intro none
      obtain ⟨rounds, done⟩ := substitutes.raw
      rw [none] at done
      exact formatMessage_unknown none rounds ⟨blob args, beyond⟩ done
    rw [substitutes_iff some templates.sized fun a member => (plain a member).1,
      formatLoops_iff (templates.run numbered), substituted, loops] at substitutes
    exact ⟨some, substitutes.1, substitutes.2⟩

-- The first loop need not pass: the placeholder that it leaves out is here what replacing yields.
example :
    let q : EQStr := ⟨fun number => if number = 5 then "%%1".toList else []⟩
    let args := ["T2".toList, ['5']]
    formatLoops q args [] 2 "%T1%T2".toList = some (q.substituted args "%T1%T2".toList) := by
  decide

/-- A string that names another one, which has a placeholder of its own. -/
def sampleTable : EQStr where
  messageStrings number :=
    if number = 1 then "%1 %T2".toList else if number = 7 then "hits %3.".toList else []

theorem formatMessage_substitutes_hits
    : Substitutes sampleTable [] (fun _ => 0) 1 ["A gnoll".toList, ['7'], "You".toList] := by
  have templates : TemplatesPass sampleTable [] ["A gnoll".toList, ['7'], "You".toList]
      (sampleTable.messageStrings 1) :=
    ⟨by decide,
      .next rfl (Pattern.passes_of_before rfl rfl (Pattern.find_eq_none_iff.mp rfl)) (.last rfl),
      rfl⟩
  have arguments : ArgumentsPass sampleTable [] ["A gnoll".toList, ['7'], "You".toList]
      (sampleTable.messageStrings 1) :=
    ⟨by decide, quiet_of_filled (by decide) (by decide) (by decide), rfl⟩
  exact (formatMessage_substitutes sampleTable [] (fun _ => 0) 1 _ (by decide) (by decide)
    (by decide)).1 ⟨templates, arguments⟩

/-- A missing argument is removed together with the chance of the placeholder behind it. -/
theorem not_formatMessage_substitutes
    : ¬ ∀ (q : EQStr) (stray : List Char) (beyond : Nat → UInt8) (formatid : UInt32)
        (args : List (List Char)),
        (∀ a ∈ args, '\x12' ∉ a ∧ '%' ∉ a)
          → Numbered rxt (q.messageStrings formatid.toInt32)
          → Numbered rx (q.withTemplates args (q.messageStrings formatid.toInt32))
          → Substitutes q stray beyond formatid args := by
  intro always
  let q : EQStr := ⟨fun _ => "%1%2".toList⟩
  have substitutes := always q [] (fun _ => 0) 1 [] (by decide) (by decide) (by decide)
  rw [substitutes_iff (by decide) (by decide) (by decide), formatLoops_iff ⟨1, rfl⟩] at substitutes
  obtain ⟨rounds, done⟩ := substitutes
  -- The search goes on two units behind the beginning of `%2`.
  have left : rx.run (putArgument [] []) 2 "%1%2".toList = some "%2".toList := rfl
  exact absurd (Pattern.run_unique done left) (by decide)

end EQStr

end Scry
