import Scry.Guilds.GuildMgr

/-! The guilds file: what packets told is read back where the names are plain, and two guilds
share an entry where their ids do not fit their halves of a key.
-/

namespace Scry

open TextStream Utf8

namespace GuildMgr

-----------------------------------------------------------------------------------------
-- A line
-----------------------------------------------------------------------------------------

/-- A name that no field, line or decoding breaks. -/
def Unbroken (name : List Char) : Prop := '|' ∉ name ∧ '\n' ∉ name

/-- The name that a line gives back. -/
def stored (name : List Char) : List Char :=
  fromBytes (asciiTrimmed ((fromUtf8 (toLatin1 name)).rdropWhile isSpace))

/-- Characters of ASCII in the text of a name are in the name. -/
theorem mem_toLatin1 {name : List Char} {c : Char} (member : UInt8.ofNat c.toNat ∈ toLatin1 name)
    (ascii : c.toNat < 0x80) (other : c ≠ '?')
    : c ∈ name := by
  obtain ⟨d, inName, same⟩ := List.mem_map.mp member
  split_ifs at same with latin
  · have value := congrArg UInt8.toNat same
    rw [UInt8.toNat_ofNat', UInt8.toNat_ofNat'] at value
    have equal : d.toNat = c.toNat := by omega
    rwa [← Char.toNat_inj.mp equal]
  · exfalso
    apply other
    have value := congrArg UInt8.toNat same
    rw [UInt8.toNat_ofNat'] at value
    apply Char.toNat_inj.mp
    change 63 = _ at value
    change c.toNat = 63
    omega

theorem Unbroken.text {name : List Char} (unbroken : Unbroken name)
    : Unbroken ((fromUtf8 (toLatin1 name)).rdropWhile isSpace) := by
  have whole {c : Char} (member : c ∈ (fromUtf8 (toLatin1 name)).rdropWhile isSpace)
      (ascii : c.toNat < 0x80) (other : c ≠ '?') : c ∈ name :=
    mem_toLatin1 (mem_fromUtf8 ((List.rdropWhile_prefix _ _).subset member) ascii) ascii other
  exact ⟨fun member => unbroken.1 (whole member (by decide) (by decide)),
    fun member => unbroken.2 (whole member (by decide) (by decide))⟩

theorem decimal_free (n : Nat) : '|' ∉ decimal n ∧ '\n' ∉ decimal n := by
  constructor
  · intro member
    exact absurd (isDigit_decimal member) (by decide)
  · intro member
    exact absurd (isDigit_decimal member) (by decide)

/-- Only the end of a line can be trimmed: it begins with a digit. -/
theorem guildLine_eq (key : UInt32) (name : List Char)
    : guildLine (key, name)
      = decimal key.toNat
        ++ '|' :: ((fromUtf8 (toLatin1 name)).rdropWhile isSpace ++ ['\n']) := by
  have front : (decimal key.toNat ++ '|' :: fromUtf8 (toLatin1 name)).dropWhile isSpace
      = decimal key.toNat ++ '|' :: fromUtf8 (toLatin1 name) := by
    cases digits : decimal key.toNat with
    | nil => exact absurd digits (decimal_ne_nil _)
    | cons c rest =>
        have digit := isDigit_decimal (digits ▸ List.mem_cons_self : c ∈ decimal key.toNat)
        rw [List.cons_append, List.dropWhile_cons_of_neg]
        rw [isSpace_of_isDigit digit]
        exact Bool.false_ne_true
  rw [guildLine, trimmed, trimBy, front, rdropWhile_append_cons (by decide)]
  simp

/-- A line that is not broken gives its key and the name it stores. -/
theorem readGuild_guildLine (m : GuildMgr) (key : UInt32) {name : List Char}
    (unbroken : Unbroken name)
    : m.readGuild (guildLine (key, name)) = ⟨m.guildList.insert key (stored name)⟩ := by
  have text := unbroken.text.1
  have ends : '|' ∉ (fromUtf8 (toLatin1 name)).rdropWhile isSpace ++ ['\n'] := by
    simpa using text
  have number : (toULong (decimal key.toNat)).toUInt32 = key := by
    have small := key.toNat_lt
    rw [toULong_decimal (by omega)]
    apply UInt32.toNat.inj
    rw [UInt64.toNat_toUInt32, UInt64.toNat_ofNat']
    omega
  rw [guildLine_eq, readGuild, List.splitOn_append_cons_self_of_not_mem (decimal_free _).1,
    List.splitOn_eq_singleton ends]
  dsimp only
  rw [number, asciiTrimmed, trimBy_concat (by decide), stored, asciiTrimmed]

-----------------------------------------------------------------------------------------
-- A file
-----------------------------------------------------------------------------------------

/-- Lines that are not broken are read one after the other, by induction on the entries. -/
theorem foldl_readGuild {entries : List (UInt32 × List Char)}
    (unbroken : ∀ entry ∈ entries, Unbroken entry.2) (m : GuildMgr)
    : (lines (entries.flatMap guildLine)).foldl readGuild m
      = ⟨entries.foldl (fun guilds entry => guilds.insert entry.1 (stored entry.2))
          m.guildList⟩ := by
  induction entries generalizing m with
  | nil => rfl
  | cons entry rest ih =>
      obtain ⟨key, name⟩ := entry
      have here := unbroken _ List.mem_cons_self
      have ends : '\n' ∉ decimal key.toNat
          ++ '|' :: (fromUtf8 (toLatin1 name)).rdropWhile isSpace := by
        simp [(decimal_free key.toNat).2, here.text.2]
      have first : guildLine (key, name) ++ rest.flatMap guildLine
          = (decimal key.toNat ++ '|' :: (fromUtf8 (toLatin1 name)).rdropWhile isSpace)
            ++ '\n' :: rest.flatMap guildLine := by
        rw [guildLine_eq]
        simp
      have line : (decimal key.toNat ++ '|' :: (fromUtf8 (toLatin1 name)).rdropWhile isSpace)
          ++ ['\n'] = guildLine (key, name) := by
        rw [guildLine_eq]
        simp
      rw [List.flatMap_cons, first, lines_append ends, line, List.foldl_cons, List.foldl_cons,
        readGuild_guildLine m key here, ih fun other member =>
          unbroken other (List.mem_cons_of_mem _ member)]

/-- What is read of a file whose names are not broken: every guild but the one of key zero, with
the name its line stores.
-/
theorem find?_readGuildList {m : GuildMgr}
    (unbroken : ∀ entry ∈ m.guildList.entries, Unbroken entry.2) (key : UInt32)
    : (readGuildList (some m.guildFile)).guildList.find? key
      = if key = 0 then none else (m.guildList.find? key).map stored := by
  have distinct : ((m.guildList.entries.filter fun entry => entry.1 ≠ 0).map Prod.fst).Nodup :=
    m.guildList.keys_nodup.sublist (List.filter_sublist.map Prod.fst)
  have kept : ∀ entry ∈ m.guildList.entries.filter fun entry => entry.1 ≠ 0, Unbroken entry.2 :=
    fun entry member => unbroken entry (List.mem_filter.mp member).1
  rw [readGuildList, guildFile, foldl_readGuild kept fresh]
  dsimp only
  rw [OrderedMap.find?_foldl_insert stored distinct]
  split_ifs with zero
  · have none_ : ((m.guildList.entries.filter fun entry => entry.1 ≠ 0).find? fun entry =>
        entry.1 == key) = none := by
      apply List.find?_eq_none.mpr
      intro entry member same
      have real := of_decide_eq_true (List.mem_filter.mp member).2
      exact real ((beq_iff_eq.mp same).trans zero)
    rw [none_]
    rfl
  · have same : ((m.guildList.entries.filter fun entry => entry.1 ≠ 0).find? fun entry =>
        entry.1 == key) = m.guildList.entries.find? fun entry => entry.1 == key := by
      rw [List.find?_filter]
      congr 1
      funext entry
      by_cases here : entry.1 = key
      · simp [here, zero]
      · simp [here]
    have list : m.guildList.find? key
        = (m.guildList.entries.find? fun entry => entry.1 == key).map Prod.snd := rfl
    rw [same, list, Option.map_map]
    cases m.guildList.entries.find? fun entry => entry.1 == key with
    | none => rfl
    | some entry => rfl

theorem Unbroken.fromBytes {text : List Char} (unbroken : Unbroken text)
    : Unbroken (fromBytes text) := by
  rw [GuildMgr.fromBytes]
  split_ifs
  · exact ⟨fun member => unbroken.1 (List.mem_of_mem_tail member),
      fun member => unbroken.2 (List.mem_of_mem_tail member)⟩
  · exact unbroken

/-- No name that is read of a line has a separator or a line break. -/
theorem unbroken_field {line key guildName : List Char}
    (inLine : '\n' ∉ line ∨ ∃ text, line = text ++ ['\n'] ∧ '\n' ∉ text)
    (fields : line.splitOn '|' = [key, guildName])
    : Unbroken (asciiTrimmed guildName) := by
  have bar : '|' ∉ guildName :=
    not_mem_splitOn (fields ▸ List.mem_cons_of_mem key List.mem_cons_self)
  have whole : line = key ++ '|' :: guildName := by
    have joined : ['|'].intercalate (line.splitOn '|') = line := List.intercalate_splitOn '|'
    rw [fields] at joined
    simpa [List.intercalate] using joined.symm
  refine ⟨fun member => bar (mem_of_mem_trimBy member), ?_⟩
  intro member
  have inName := mem_of_mem_trimBy member
  rcases inLine with none_ | ⟨text, ends, none_⟩
  · apply none_
    rw [whole]
    exact List.mem_append_right _ (List.mem_cons_of_mem _ inName)
  · rcases List.eq_nil_or_concat guildName with rfl | ⟨name, last, rfl⟩
    · cases inName
    · have parts : text ++ ['\n'] = (key ++ '|' :: name) ++ [last] := by
        rw [← ends, whole]
        simp
      obtain ⟨rfl, same⟩ := List.append_inj' parts rfl
      obtain rfl : '\n' = last := by simpa using same
      rw [asciiTrimmed, List.concat_eq_append, trimBy_concat (by decide)] at member
      exact none_ (List.mem_append_right _
        (List.mem_cons_of_mem _ (mem_of_mem_trimBy member)))

/-- No name that is read has a separator or a line break, by induction on the lines. -/
theorem unbroken_readGuildList (file : Option (List Char))
    : ∀ entry ∈ (readGuildList file).guildList.entries, Unbroken entry.2 := by
  cases file with
  | none =>
      intro entry member
      cases member
  | some text =>
      have step (ls : List (List Char)) (all : ∀ line ∈ ls, line ∈ lines text) (m : GuildMgr)
          (unbroken : ∀ entry ∈ m.guildList.entries, Unbroken entry.2)
          : ∀ entry ∈ (ls.foldl readGuild m).guildList.entries, Unbroken entry.2 := by
        induction ls generalizing m with
        | nil => exact unbroken
        | cons line rest ih =>
            apply ih fun other member => all other (List.mem_cons_of_mem line member)
            rw [readGuild]
            split
            next key guildName fields =>
              intro entry member
              rcases OrderedMap.mem_entries_insert.mp member with rfl | ⟨old, _⟩
              · exact (unbroken_field (mem_lines (all line List.mem_cons_self)) fields).fromBytes
              · exact unbroken entry old
            next => exact unbroken
      apply step (lines text) (fun line member => member) fresh
      intro entry member
      cases member

-----------------------------------------------------------------------------------------
-- Names
-----------------------------------------------------------------------------------------

/-- A name of ASCII without blanks around it, separators and line breaks. -/
structure Plain (name : List Char) : Prop where
  unbroken : Unbroken name
  ascii : ∀ c ∈ name, c.toNat < 0x80
  trimmed : trimmed name = name

theorem asciiTrimmed_of_ascii {name : List Char} (ascii : ∀ c ∈ name, c.toNat < 0x80)
    : asciiTrimmed name = trimmed name := by
  apply trimBy_congr
  intro c member
  have small := ascii c member
  apply Bool.eq_iff_iff.mpr
  simp only [asciiSpace, isSpace, Bool.or_eq_true, Bool.and_eq_true, decide_eq_true_eq]
  omega

theorem ascii_fromLatin1_iff {bytes : List UInt8}
    : (∀ c ∈ fromLatin1 bytes, c.toNat < 0x80) ↔ ∀ b ∈ bytes, b < 0x80 := by
  rw [fromLatin1, List.forall_mem_map]
  apply forall₂_congr
  intro b _
  rw [toNat_ofByte, UInt8.lt_iff_toNat_lt]
  rfl

theorem fromBytes_sublist (text : List Char) : (fromBytes text).Sublist text := by
  rw [fromBytes]
  split_ifs
  · exact List.tail_sublist text
  · exact List.Sublist.refl text

/-- A name of Latin-1 is given back if and only if it is of ASCII without blanks around it: every
other character is written as text of UTF-8, which has fewer characters or others.
-/
theorem stored_eq_iff {bytes : List UInt8}
    : stored (fromLatin1 bytes) = fromLatin1 bytes
      ↔ (∀ c ∈ fromLatin1 bytes, c.toNat < 0x80)
        ∧ trimmed (fromLatin1 bytes) = fromLatin1 bytes := by
  have text := toLatin1_fromLatin1 bytes
  constructor
  · intro same
    rw [stored, text] at same
    have sizes := congrArg List.length same
    have size : (fromLatin1 bytes).length = bytes.length := List.length_map _
    have decoded := length_fromUtf8 bytes
    have end_ := List.rdropWhile_prefix isSpace (fromUtf8 bytes)
    have trim := trimBy_sublist asciiSpace ((fromUtf8 bytes).rdropWhile isSpace)
    have mark := fromBytes_sublist (asciiTrimmed ((fromUtf8 bytes).rdropWhile isSpace))
    have endSize := end_.length_le
    have trimSize := trim.length_le
    have markSize := mark.length_le
    rw [asciiTrimmed] at sizes markSize
    have whole : (fromUtf8 bytes).rdropWhile isSpace = fromUtf8 bytes :=
      end_.sublist.eq_of_length_le (by omega)
    have trimmedWhole : asciiTrimmed ((fromUtf8 bytes).rdropWhile isSpace)
        = (fromUtf8 bytes).rdropWhile isSpace :=
      trim.eq_of_length_le (by omega)
    have marked : fromBytes (asciiTrimmed ((fromUtf8 bytes).rdropWhile isSpace))
        = asciiTrimmed ((fromUtf8 bytes).rdropWhile isSpace) :=
      mark.eq_of_length_le (by rw [asciiTrimmed]; omega)
    have plain : fromUtf8 bytes = fromLatin1 bytes :=
      whole.symm.trans (trimmedWhole.symm.trans (marked.symm.trans same))
    have ascii := ascii_fromLatin1_iff.mpr (fromUtf8_eq_fromLatin1_iff.mp plain)
    refine ⟨ascii, ?_⟩
    rw [← asciiTrimmed_of_ascii ascii, ← plain]
    rwa [whole] at trimmedWhole
  · rintro ⟨ascii, trim⟩
    have plain := fromUtf8_eq_fromLatin1_iff.mpr (ascii_fromLatin1_iff.mp ascii)
    have end_ : (fromLatin1 bytes).rdropWhile isSpace = fromLatin1 bytes := by
      have trimmedEnd := rdropWhile_trimBy isSpace (fromLatin1 bytes)
      rwa [show trimBy isSpace (fromLatin1 bytes) = fromLatin1 bytes from trim] at trimmedEnd
    rw [stored, text, plain, end_, asciiTrimmed_of_ascii ascii, trim, fromBytes, if_neg]
    intro mark
    exact absurd (ascii '\ufeff' (List.mem_of_mem_head? mark)) (by decide)

/-- Guilds with names of Latin-1 are read back if and only if none has key zero and every name is
plain.
-/
theorem readGuildList_eq_iff {m : GuildMgr}
    (latin : ∀ entry ∈ m.guildList.entries, ∃ bytes, entry.2 = fromLatin1 bytes)
    : readGuildList (some m.guildFile) = m
      ↔ ∀ entry ∈ m.guildList.entries, entry.1 ≠ 0 ∧ Plain entry.2 := by
  constructor
  · intro same
    have unbroken := unbroken_readGuildList (some m.guildFile)
    rw [same] at unbroken
    rintro ⟨key, name⟩ member
    obtain ⟨bytes, rfl⟩ : ∃ bytes, name = fromLatin1 bytes := latin _ member
    have read := find?_readGuildList unbroken key
    rw [same, OrderedMap.find?_eq_some_iff.mpr member] at read
    split_ifs at read with zero
    have kept := (Option.some.inj read).symm
    obtain ⟨ascii, trim⟩ := stored_eq_iff.mp kept
    exact ⟨zero, unbroken _ member, ascii, trim⟩
  · intro plain
    have read := find?_readGuildList (m := m) fun entry member => (plain entry member).2.unbroken
    have lists : (readGuildList (some m.guildFile)).guildList = m.guildList := by
      apply OrderedMap.ext_find?
      intro key
      rw [read]
      cases held : m.guildList.find? key with
      | none => simp
      | some name =>
          have member := OrderedMap.mem_of_find? held
          obtain ⟨real, isPlain⟩ := plain _ member
          obtain ⟨bytes, rfl⟩ : ∃ bytes, name = fromLatin1 bytes := latin _ member
          rw [if_neg real, Option.map_some, stored_eq_iff.mpr ⟨isPlain.ascii, isPlain.trimmed⟩]
    cases m
    exact congrArg GuildMgr.mk lists

end GuildMgr

-----------------------------------------------------------------------------------------
-- Keys
-----------------------------------------------------------------------------------------

/-- The halves of a key: the lower one is that of the guild, the upper one joins the lower one
of the server with what the guild has above its own.
-/
theorem GuildInZoneEntry.key_halves (e : GuildInZoneEntry)
    : e.key.toNat % 65536 = e.guildId.toNat % 65536
      ∧ e.key.toNat / 65536 = (e.serverId.toNat % 65536 ||| e.guildId.toNat / 65536) := by
  have value : e.key.toNat = e.serverId.toNat % 65536 * 2 ^ 16 ||| e.guildId.toNat := by
    have shifted : (e.serverId <<< 16).toNat = e.serverId.toNat % 65536 * 2 ^ 16 := by
      rw [UInt32.toNat_shiftLeft, Nat.shiftLeft_eq]
      change e.serverId.toNat * 2 ^ 16 % 2 ^ 32 = _
      omega
    rw [GuildInZoneEntry.key, UInt32.toNat_or, shifted]
  rw [value]
  constructor
  · change (_ ||| _) % 2 ^ 16 = _ % 2 ^ 16
    rw [Nat.or_mod_two_pow, Nat.mul_mod_left, Nat.zero_or]
  · change (_ ||| _) / 2 ^ 16 = _ ||| _ / 2 ^ 16
    rw [Nat.or_div_two_pow, Nat.mul_div_cancel _ (by decide)]

/-- Rows of guilds whose keys differ: their lower halves do, or the upper ones. -/
def GuildInZoneRow.Apart (r r' : GuildInZoneRow) : Prop :=
  r.guildId.toNat % 65536 ≠ r'.guildId.toNat % 65536
    ∨ (r.serverId.toNat % 65536 ||| r.guildId.toNat / 65536)
      ≠ (r'.serverId.toNat % 65536 ||| r'.guildId.toNat / 65536)

theorem GuildInZoneRow.key_ne_iff (r r' : GuildInZoneRow)
    : r.entry.key ≠ r'.entry.key ↔ r.Apart r' := by
  obtain ⟨low, high⟩ := r.entry.key_halves
  obtain ⟨low', high'⟩ := r'.entry.key_halves
  rw [Apart]
  change _ ↔ r.entry.guildId.toNat % 65536 ≠ r'.entry.guildId.toNat % 65536
    ∨ (r.entry.serverId.toNat % 65536 ||| r.entry.guildId.toNat / 65536)
      ≠ (r'.entry.serverId.toNat % 65536 ||| r'.entry.guildId.toNat / 65536)
  rw [← low, ← low', ← high, ← high', ← not_and_or, not_iff_not]
  constructor
  · intro same
    rw [same]
    exact ⟨rfl, rfl⟩
  · rintro ⟨sameLow, sameHigh⟩
    apply UInt32.toNat.inj
    omega

-----------------------------------------------------------------------------------------
-- Packets
-----------------------------------------------------------------------------------------

/-- Every step of writing the guilds succeeds. -/
structure GuildSaving.Succeeds (s : GuildSaving) : Prop where
  sees : s.sees = true
  removes : s.removes = true
  opens : s.opens = true
  stores : s.stores = id

namespace GuildMgr

/-- What is learned of a packet keeps a property of the names it has. -/
theorem forall_learned {P : List Char → Prop} (named : ∀ bytes, P (fromLatin1 bytes))
    (packets : List (List GuildInZoneRow))
    : ∀ entry ∈ (learned packets).guildList.entries, P entry.2 := by
  have row (m : GuildMgr) (r : GuildInZoneRow) (all : ∀ entry ∈ m.guildList.entries, P entry.2)
      : ∀ entry ∈ (m.learnGuild r.entry).guildList.entries, P entry.2 := by
    rw [learnGuild]
    split_ifs
    · intro entry member
      rcases OrderedMap.mem_entries_insert.mp member with rfl | ⟨old, _⟩
      · exact named r.name
      · exact all entry old
    · exact all
  have packet (rows : List GuildInZoneRow) (m : GuildMgr)
      (all : ∀ entry ∈ m.guildList.entries, P entry.2)
      : ∀ entry ∈ (m.feedRows rows).guildList.entries, P entry.2 := by
    rw [feedRows, learnGuilds]
    induction rows generalizing m with
    | nil => exact all
    | cons r rest ih => exact ih _ (row m r all)
  have run (m : GuildMgr) (all : ∀ entry ∈ m.guildList.entries, P entry.2)
      : ∀ entry ∈ (packets.foldl feedRows m).guildList.entries, P entry.2 := by
    induction packets generalizing m with
    | nil => exact all
    | cons rows rest ih => exact ih _ (packet rows m all)
  apply run fresh
  intro entry member
  cases member

theorem stored_guilds (m : GuildMgr) {s : GuildSaving} (succeeds : s.Succeeds)
    : (m.writeGuildList s) .canonical = some m.guildFile := by
  obtain ⟨sees, removes, opens, stores⟩ := succeeds
  rw [(m.writeGuildList_eq s).2, sees, removes, opens, stores]
  simp

/-- Rows that tell the name of a guild. -/
def named (packets : List (List GuildInZoneRow)) : List GuildInZoneRow :=
  packets.flatten.filter fun r => r.name ≠ []

/-- Two guilds that packets name do not share an entry. -/
def NeverShares (packets : List (List GuildInZoneRow)) : Prop :=
  ∀ r ∈ named packets, ∀ r' ∈ named packets,
    (r.serverId, r.guildId) ≠ (r'.serverId, r'.guildId) → r.entry.key ≠ r'.entry.key

/-- The guilds of packets are read back from their file, and never share an entry, if and only
if no key is zero, every name is of ASCII without separators, line breaks and blanks around it,
and different guilds have different halves of keys.
-/
theorem guilds_iff (packets : List (List GuildInZoneRow)) {s : GuildSaving}
    (succeeds : s.Succeeds)
    : readGuildList (((learned packets).writeGuildList s) .canonical) = learned packets
        ∧ NeverShares packets
      ↔ (∀ entry ∈ (learned packets).guildList.entries, entry.1 ≠ 0 ∧ Plain entry.2)
        ∧ ∀ r ∈ named packets, ∀ r' ∈ named packets,
          (r.serverId, r.guildId) ≠ (r'.serverId, r'.guildId) → r.Apart r' := by
  have latin : ∀ entry ∈ (learned packets).guildList.entries,
      ∃ bytes, entry.2 = fromLatin1 bytes :=
    forall_learned (P := fun name => ∃ bytes, name = fromLatin1 bytes)
      (fun bytes => ⟨bytes, rfl⟩) packets
  rw [stored_guilds _ succeeds, readGuildList_eq_iff latin, NeverShares]
  simp only [GuildInZoneRow.key_ne_iff]

/-- Writing that succeeds, in a directory without files. -/
def plainSaving : GuildSaving :=
  { directory := fun _ => none, sees := true, removes := true, opens := true, stores := id }

/-- The guild 7 of the server 1. -/
def fires : GuildInZoneRow :=
  { guildId := 7, serverId := 1, name := toLatin1 "Fires of Heaven".toList }

/-- A guild that packets name twice. -/
theorem guilds_fires
    : readGuildList (((learned [[fires], [fires]]).writeGuildList plainSaving) .canonical)
          = learned [[fires], [fires]]
        ∧ NeverShares [[fires], [fires]]
      ↔ (∀ entry ∈ (learned [[fires], [fires]]).guildList.entries, entry.1 ≠ 0 ∧ Plain entry.2)
        ∧ ∀ r ∈ named [[fires], [fires]], ∀ r' ∈ named [[fires], [fires]],
          (r.serverId, r.guildId) ≠ (r'.serverId, r'.guildId) → r.Apart r' :=
  guilds_iff [[fires], [fires]] ⟨rfl, rfl, rfl, rfl⟩

/-- A name with a separator is lost, and the guild 65543 of the server 0 has the entry of the
guild 7 of the server 1.
-/
theorem not_guilds
    : (¬ ∀ packets : List (List GuildInZoneRow),
        readGuildList (((learned packets).writeGuildList plainSaving) .canonical)
          = learned packets)
      ∧ ¬ ∀ packets, NeverShares packets := by
  constructor
  · intro reads
    have same := reads [[{ fires with name := toLatin1 "A|B".toList }]]
    revert same
    decide +kernel
  · intro never
    have apart := never [[fires, { fires with guildId := 65543, serverId := 0 }]] fires
      (by decide +kernel) { fires with guildId := 65543, serverId := 0 } (by decide +kernel)
      (by decide +kernel)
    revert apart
    decide +kernel

end GuildMgr

end Scry
