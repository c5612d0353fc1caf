import Scry.Filters.Rules
import Scry.Session.Feeds

/-! The rules that clients show.
Every change of the rules, whichever client asks for it and whether they come from an edit or from
a file, is followed by the whole list of them. What a client holds says why a spawn is flagged: a
flag of the daemon is up exactly where a row of the list matches.
-/

namespace Scry

-----------------------------------------------------------------------------------------
-- Rows
-----------------------------------------------------------------------------------------

/-- `FilterRule` on the wire. -/
structure FilterRow where
  filterType : UInt32
  pattern : List Char
  minLevel : UInt32
  maxLevel : UInt32
  perZone : Bool
  deriving DecidableEq

def Filter.getMinLevel (f : Filter) (index : Nat) : Int :=
  match f.filterItems[index]? with
  | none => -1
  | some item => item.minLevel.toNat

def Filter.getMaxLevel (f : Filter) (index : Nat) : Int :=
  match f.filterItems[index]? with
  | none => -1
  | some item => item.maxLevel.toNat

namespace Filters

def getMinLevel (f : Filters) (type : UInt8) (index : Nat) : Int :=
  match f.filters.find? (FilterTypes.mask type) with
  | none => -1
  | some filter => filter.getMinLevel index

def getMaxLevel (f : Filters) (type : UInt8) (index : Nat) : Int :=
  match f.filters.find? (FilterTypes.mask type) with
  | none => -1
  | some filter => filter.getMaxLevel index

/-- `appendFilterRules`. -/
def appendFilterRules (f : Filters) (perZone : Bool) : List FilterRow :=
  (List.range FilterMgr.sizeofFilters).flatMap fun type =>
    (List.range (f.numFilters (.ofNat type))).map fun i =>
      { filterType := .ofNat type
        pattern := f.getOrigFilterString (.ofNat type) i
        minLevel := .ofInt (f.getMinLevel (.ofNat type) i)
        maxLevel := .ofInt (f.getMaxLevel (.ofNat type) i)
        perZone }

end Filters

/-- The row of a rule. -/
def FilterItem.row (type : Nat) (perZone : Bool) (item : FilterItem) : FilterRow :=
  { filterType := .ofNat type
    pattern := item.originalPattern
    minLevel := item.minLevel.toUInt32
    maxLevel := item.maxLevel.toUInt32
    perZone }

namespace Filters

variable {f : Filters} {re : RegularExpressions} {c : Bool}

theorem getLevels_eq {type : UInt8} {i : Nat}
    (inside : i < (f.rulesOf (FilterTypes.mask type)).length)
    : f.getMinLevel type i = (f.rulesOf (FilterTypes.mask type))[i].minLevel.toNat
      ∧ f.getMaxLevel type i = (f.rulesOf (FilterTypes.mask type))[i].maxLevel.toNat := by
  cases found : f.filters.find? (FilterTypes.mask type) with
  | none =>
      have none : f.rulesOf (FilterTypes.mask type) = [] := by rw [rulesOf, found]
      rw [none] at inside
      contradiction
  | some filter =>
      have some : f.rulesOf (FilterTypes.mask type) = filter.filterItems := by rw [rulesOf, found]
      simp only [some] at inside ⊢
      simp [getMinLevel, getMaxLevel, found, Filter.getMinLevel, Filter.getMaxLevel, inside]

theorem ofInt_level (level : UInt8) : UInt32.ofInt level.toNat = level.toUInt32 := by
  apply UInt32.toNat_inj.mp
  have small := level.toNat_lt
  rw [UInt32.ofInt, UInt32.toNat_ofNat', UInt8.toNat_toUInt32]
  omega

/-- The rows are those of the rules, type by type and in their order. -/
theorem appendFilterRules_eq (f : Filters) (perZone : Bool)
    : f.appendFilterRules perZone
      = (List.range FilterMgr.sizeofFilters).flatMap fun type =>
          (f.rulesOf (FilterTypes.mask (.ofNat type))).map (FilterItem.row type perZone) := by
  refine List.flatMap_congr fun type _ => ?_
  apply List.ext_getElem
  · rw [List.length_map, List.length_map, List.length_range, numFilters_eq]
  · intro i first last
    have inside : i < (f.rulesOf (FilterTypes.mask (.ofNat type))).length := by
      rwa [List.length_map] at last
    obtain ⟨lowest, highest⟩ := getLevels_eq inside
    simp only [List.getElem_map, List.getElem_range, getOrigFilterString_eq inside, lowest, highest,
      ofInt_level]
    rfl

-----------------------------------------------------------------------------------------
-- What every set of rules keeps to
-----------------------------------------------------------------------------------------

/-- The rules that a daemon has: of the registered types, and all searched with regard to case or
all without.
-/
structure Uniform (c : Bool) (f : Filters) : Prop where
  types : f.types = .registered
  caseKept : f.caseSensitive = c
  typed : ∀ mask filter, f.filters.find? mask = some filter →
    ∃ type < FilterMgr.sizeofFilters, mask = FilterTypes.mask (.ofNat type)
  caseSensitive : ∀ mask filter, f.filters.find? mask = some filter →
    filter.caseSensitive = c
  items : ∀ mask filter, f.filters.find? mask = some filter → ∀ item ∈ filter.filterItems,
    item = .init item.originalPattern c item.minLevel item.maxLevel

theorem uniform_new (c : Bool) : (new .registered c).Uniform c :=
  ⟨rfl, rfl, nofun, nofun, nofun⟩

/-- The valid masks are those of the table. -/
theorem typed_of_validMask {type : UInt8}
    (valid : FilterTypes.registered.validMask (FilterTypes.mask type) = true)
    : ∃ i < FilterMgr.sizeofFilters, FilterTypes.mask type = FilterTypes.mask (.ofNat i) := by
  have taken : ∀ bit < 32, FilterTypes.registered.validMask (1 <<< bit) = true → bit < 7 := by
    decide +kernel
  have below := taken (type.toNat % 32) (by omega) valid
  refine ⟨type.toNat % 32, below, ?_⟩
  have small : (UInt8.ofNat (type.toNat % 32)).toNat = type.toNat % 32 := by
    rw [UInt8.toNat_ofNat']
    omega
  rw [FilterTypes.mask, FilterTypes.mask, small, Nat.mod_mod]

/-- A type gets other rules of the same kind. -/
theorem Uniform.insert (uniform : f.Uniform c) {type : UInt8} {filter : Filter}
    (valid : f.types.validMask (FilterTypes.mask type) = true)
    (caseSensitive : filter.caseSensitive = c)
    (items : ∀ item ∈ filter.filterItems,
      item = .init item.originalPattern c item.minLevel item.maxLevel)
    : Uniform c { f with filters := f.filters.insert (FilterTypes.mask type) filter } := by
  have both {P : Nat → Filter → Prop} (here : P (FilterTypes.mask type) filter)
      (there : ∀ mask filter, f.filters.find? mask = some filter → P mask filter)
      (mask : Nat) (other : Filter)
      (found : (f.filters.insert (FilterTypes.mask type) filter).find? mask = some other)
      : P mask other := by
    rw [OrderedMap.find?_insert] at found
    split_ifs at found with same
    · subst same
      exact Option.some.inj found ▸ here
    · exact there mask other found
  refine ⟨uniform.types, uniform.caseKept, ?_, ?_, ?_⟩
  · exact both (P := fun mask _ => ∃ type < FilterMgr.sizeofFilters,
      mask = FilterTypes.mask (.ofNat type)) (typed_of_validMask (uniform.types ▸ valid))
      uniform.typed
  · exact both (P := fun _ filter => filter.caseSensitive = c) caseSensitive
      uniform.caseSensitive
  · exact both (P := fun _ filter => ∀ item ∈ filter.filterItems,
      item = .init item.originalPattern c item.minLevel item.maxLevel) items
      uniform.items

theorem Uniform.addFilter (uniform : f.Uniform c) (type : UInt8) (pattern : List Char)
    (minLevel maxLevel : UInt8)
    : (f.addFilter re type pattern minLevel maxLevel).2.Uniform c := by
  rw [Filters.addFilter]
  split_ifs with valid
  · let old := (f.filters.find? (FilterTypes.mask type)).getD ⟨f.caseSensitive, []⟩
    have same : old.caseSensitive = c ∧ ∀ item ∈ old.filterItems,
        item = .init item.originalPattern c item.minLevel item.maxLevel := by
      cases found : f.filters.find? (FilterTypes.mask type) with
      | none => simp [old, found, uniform.caseKept]
      | some filter =>
          simpa [old, found] using
            ⟨uniform.caseSensitive _ filter found, uniform.items _ filter found⟩
    change Uniform c { f with
      filters := f.filters.insert (FilterTypes.mask type)
        (old.addFilter re pattern minLevel maxLevel).2 }
    rw [Filter.addFilter]
    split_ifs
    · exact uniform.insert valid same.1 same.2
    · refine uniform.insert valid same.1 fun item listed => ?_
      rcases List.mem_append.mp listed with there | last
      · exact same.2 item there
      · rw [List.mem_singleton.mp last, ← same.1]
        rfl
  · exact uniform

theorem Uniform.remFilter (uniform : f.Uniform c) (type : UInt8) (pattern : List Char)
    : (f.remFilter type pattern).Uniform c := by
  rw [Filters.remFilter]
  split_ifs with valid
  · cases found : f.filters.find? (FilterTypes.mask type) with
    | none => exact uniform
    | some filter =>
        refine uniform.insert valid (uniform.caseSensitive _ filter found) fun item listed => ?_
        exact uniform.items _ filter found item (List.mem_of_mem_eraseP listed)
  · exact uniform

theorem Uniform.load (uniform : f.Uniform c) (read : List Char → List Xml.Token)
    (text : Option (List Char))
    : (f.load read re text).2.Uniform c := by
  have clear : f.clear.Uniform c := ⟨uniform.types, uniform.caseKept, nofun, nofun, nofun⟩
  cases text with
  | none => exact clear
  | some text =>
      exact LoadXmlContentHandler.tokens_keeps
        (fun _ type pattern minLevel maxLevel uniform =>
          uniform.addFilter type pattern minLevel maxLevel) clear

-----------------------------------------------------------------------------------------
-- Why a flag is up
-----------------------------------------------------------------------------------------

end Filters

/-- A row matches as its rule does. -/
def FilterRow.isFiltered (re : RegularExpressions) (caseSensitive : Bool) (row : FilterRow)
    (filterString : List Char) (level : UInt8)
    : Bool :=
  (FilterItem.init row.pattern caseSensitive row.minLevel.toUInt8 row.maxLevel.toUInt8).isFiltered
    re filterString level

namespace Filters

variable {f : Filters} {re : RegularExpressions} {c : Bool}

/-- A bit of the mask is set by a type whose rules match, by induction on the types. -/
theorem testBit_filterMask (filterString : List Char) (level : UInt8) (bit : Nat)
    : (f.filterMask re filterString level).testBit bit = true
      ↔ ∃ entry ∈ f.filters.entries,
          entry.2.isFiltered re filterString level = true ∧ entry.1.testBit bit = true := by
  have walk (entries : List (Nat × Filter)) (mask : Nat)
      : (entries.foldl (fun mask entry =>
          if entry.2.isFiltered re filterString level then mask ||| entry.1 else mask)
          mask).testBit bit = true
        ↔ mask.testBit bit = true ∨ ∃ entry ∈ entries,
            entry.2.isFiltered re filterString level = true ∧ entry.1.testBit bit = true := by
    induction entries generalizing mask with
    | nil => simp
    | cons entry rest ih =>
        rw [List.foldl_cons, ih]
        split_ifs with hit
        · simp [hit, Nat.testBit_or, or_assoc]
        · simp [hit]
  rw [filterMask, walk]
  simp

/-- The bit of a type is set exactly where one of its rows matches. -/
theorem Uniform.testBit_iff (uniform : f.Uniform c) (perZone : Bool) (filterString : List Char)
    (level : UInt8) (bit : Nat)
    : (f.filterMask re filterString level).testBit bit = true
      ↔ ∃ row ∈ f.appendFilterRules perZone,
          row.filterType.toNat = bit ∧ row.isFiltered re c filterString level = true := by
  have single {type : Nat} (small : type < FilterMgr.sizeofFilters)
      : (FilterTypes.mask (.ofNat type)).testBit bit = true ↔ type = bit := by
    have below : type < 7 := small
    have number : (UInt8.ofNat type).toNat % 32 = type := by
      rw [UInt8.toNat_ofNat']
      omega
    rw [FilterTypes.mask, number, Nat.one_shiftLeft, Nat.testBit_two_pow, decide_eq_true_iff]
  have shown {type : Nat} {item : FilterItem}
      (own : item = .init item.originalPattern c item.minLevel item.maxLevel)
      : (item.row type perZone).isFiltered re c filterString level
        = item.isFiltered re filterString level := by
    conv_rhs => rw [own]
    simp [FilterRow.isFiltered, FilterItem.row]
  have typeNumber {type : Nat} (small : type < FilterMgr.sizeofFilters)
      : (UInt32.ofNat type).toNat = type := by
    have below : type < 7 := small
    rw [UInt32.toNat_ofNat']
    omega
  rw [testBit_filterMask, appendFilterRules_eq]
  constructor
  · rintro ⟨⟨mask, filter⟩, listed, hit, set⟩
    have found := OrderedMap.find?_eq_some_iff.mpr listed
    obtain ⟨type, small, rfl⟩ := uniform.typed mask filter found
    obtain ⟨item, inside, filtered⟩ := List.any_eq_true.mp hit
    have rules : f.rulesOf (FilterTypes.mask (.ofNat type)) = filter.filterItems := by
      rw [rulesOf, found]
    refine ⟨item.row type perZone, ?_, (typeNumber small).trans ((single small).mp set), ?_⟩
    · refine List.mem_flatMap.mpr ⟨type, List.mem_range.mpr small, ?_⟩
      exact List.mem_map_of_mem (rules ▸ inside)
    · exact (shown (uniform.items _ filter found item inside)).trans filtered
  · rintro ⟨row, listed, rfl, filtered⟩
    obtain ⟨type, inRange, inside⟩ := List.mem_flatMap.mp listed
    obtain ⟨item, inRules, rfl⟩ := List.mem_map.mp inside
    have small := List.mem_range.mp inRange
    rw [rulesOf] at inRules
    cases found : f.filters.find? (FilterTypes.mask (.ofNat type)) with
    | none => simp [found] at inRules
    | some filter =>
        simp only [found] at inRules
        refine ⟨_, OrderedMap.find?_eq_some_iff.mp found, ?_, ?_⟩
        · refine List.any_eq_true.mpr ⟨item, inRules, ?_⟩
          exact (shown (uniform.items _ filter found item inRules)).symm.trans filtered
        · exact (single small).mpr (typeNumber small).symm

end Filters

-----------------------------------------------------------------------------------------
-- The manager and its sessions
-----------------------------------------------------------------------------------------

/-- The rules of a `FilterMgr` for all zones and for the current one. -/
structure FilterRules where
  filters : Filters
  zoneFilters : Filters

/-- What the manager is asked to do. A file has a text where it can be opened. -/
inductive FilterOp
  | addFilterRule (filterType : UInt32) (pattern : List Char) (perZone : Bool)
  | removeFilterRule (filterType : UInt32) (pattern : List Char) (perZone : Bool)
  | editFilterRule (filterType : UInt32) (oldPattern newPattern : List Char) (perZone : Bool)
  | saveFilters (perZone : Bool)
  | loadFilters (text : Option (List Char))
  | loadZone (text : Option (List Char))

namespace FilterRules

variable (read : List Char → List Xml.Token) (re : RegularExpressions)

/-- The rules for all zones or for one. -/
def side (s : FilterRules) (perZone : Bool) : Filters :=
  if perZone then s.zoneFilters else s.filters

def withSide (s : FilterRules) (perZone : Bool) (f : Filters) : FilterRules :=
  if perZone then { s with zoneFilters := f } else { s with filters := f }

/-- What the rules become, and whether `filtersChanged` is emitted. -/
def step (op : FilterOp) (s : FilterRules) : FilterRules × Bool :=
  match op with
  | .addFilterRule filterType pattern perZone =>
      if FilterMgr.sizeofFilters ≤ filterType.toUInt8.toNat then (s, false)
      else (s.withSide perZone
        ((s.side perZone).addFilter re filterType.toUInt8 pattern 0 0).2, true)
  | .removeFilterRule filterType pattern perZone =>
      if FilterMgr.sizeofFilters ≤ filterType.toUInt8.toNat then (s, false)
      else (s.withSide perZone ((s.side perZone).remFilter filterType.toUInt8 pattern), true)
  | .editFilterRule filterType oldPattern newPattern perZone =>
      if FilterMgr.sizeofFilters ≤ filterType.toUInt8.toNat then (s, false)
      else (s.withSide perZone
        (FilterMgr.editFilter re (s.side perZone) filterType.toUInt8 oldPattern newPattern).2, true)
  | .saveFilters _ => (s, false)
  | .loadFilters text => (s.withSide false ((s.side false).load read re text).2, true)
  | .loadZone text => (s.withSide true ((s.side true).load read re text).2, true)

/-- `filterMask`. -/
def filterMask (s : FilterRules) (filterString : List Char) (level : UInt8) : Nat :=
  s.filters.filterMask re filterString level ||| s.zoneFilters.filterMask re filterString level

/-- `fillFilterRulesUpdate`. -/
def fillFilterRulesUpdate (s : FilterRules) : List FilterRow :=
  s.filters.appendFilterRules false ++ s.zoneFilters.appendFilterRules true

/-- The constructor: no constructor of the two sets says whether they regard case. -/
def fresh (c zoneCase : Bool) (text zoneText : Option (List Char)) : FilterRules :=
  { filters := ((Filters.new .registered c).load read re text).2
    zoneFilters := ((Filters.new .registered zoneCase).load read re zoneText).2 }

/-- The bodies that tell of rules. -/
inductive Body
  | other
  | filterRules (rows : List FilterRow)

/-- `filtersChanged` is connected by a `Subscribe`, which sends the rules first. -/
def feed : FeedSource FilterRules FilterOp Body where
  step op s := (s.step read re op).1
  sends op s :=
    if (s.step read re op).2 then
      [.filterRules (s.step read re op).1.fillFilterRulesUpdate]
    else []
  early _ := false
  snapshot _ := .other
  initial s := [.filterRules s.fillFilterRulesUpdate]

/-- A client holds the last list. -/
def held (rows : Option (List FilterRow)) : Body → Option (List FilterRow)
  | .other => rows
  | .filterRules rows => some rows

/-- Both sets are as a daemon has them. -/
structure Sound (c zoneCase : Bool) (s : FilterRules) : Prop where
  filters : s.filters.Uniform c
  zoneFilters : s.zoneFilters.Uniform zoneCase

variable {read re} {s : FilterRules} {c zoneCase : Bool}

theorem sound_fresh (text zoneText : Option (List Char))
    : (fresh read re c zoneCase text zoneText).Sound c zoneCase :=
  ⟨(Filters.uniform_new c).load read text, (Filters.uniform_new zoneCase).load read zoneText⟩

/-- What is done to either set and keeps it uniform keeps the manager sound. -/
theorem Sound.withSide (sound : s.Sound c zoneCase) (perZone : Bool) {change : Filters → Filters}
    (keeps : ∀ {f : Filters} {c : Bool}, f.Uniform c → (change f).Uniform c)
    : (s.withSide perZone (change (s.side perZone))).Sound c zoneCase := by
  cases perZone with
  | false => exact ⟨keeps sound.filters, sound.zoneFilters⟩
  | true => exact ⟨sound.filters, keeps sound.zoneFilters⟩

theorem Sound.step (sound : s.Sound c zoneCase) (op : FilterOp)
    : (s.step read re op).1.Sound c zoneCase := by
  cases op with
  | addFilterRule filterType pattern perZone =>
      rw [FilterRules.step]
      split_ifs
      · exact sound
      · exact sound.withSide perZone fun uniform => uniform.addFilter _ _ _ _
  | removeFilterRule filterType pattern perZone =>
      rw [FilterRules.step]
      split_ifs
      · exact sound
      · exact sound.withSide perZone fun uniform => uniform.remFilter _ _
  | editFilterRule filterType oldPattern newPattern perZone =>
      rw [FilterRules.step]
      split_ifs with unknown
      · exact sound
      · have keeps {f : Filters} {c : Bool} (uniform : f.Uniform c)
            : (FilterMgr.editFilter re f filterType.toUInt8 oldPattern newPattern).2.Uniform c := by
          rw [FilterMgr.editFilter, if_neg unknown]
          exact (uniform.remFilter _ _).addFilter _ _ _ _
        exact sound.withSide perZone keeps
  | saveFilters perZone => exact sound
  | loadFilters text => exact sound.withSide false fun uniform => uniform.load read text
  | loadZone text => exact sound.withSide true fun uniform => uniform.load read text

/-- Without a signal the rules stay. -/
theorem step_of_silent {op : FilterOp} (silent : (s.step read re op).2 = false)
    : (s.step read re op).1 = s := by
  cases op with
  | addFilterRule | removeFilterRule | editFilterRule =>
      rw [step] at silent ⊢
      split_ifs at silent ⊢
      rfl
  | saveFilters => rfl
  | loadFilters | loadZone => cases silent

theorem followed
    : (feed read re).Followed held none (Sound c zoneCase)
        (fun rows s => rows = some s.fillFilterRulesUpdate) where
  keeps _ op sound := sound.step op
  greets s waiting _ _ := by
    rw [← List.cons_append, FeedSource.read_append]
    rfl
  follows s op rows _ shows := by
    simp only [feed]
    cases signalled : (s.step read re op).2 with
    | true => rfl
    | false =>
        rw [step_of_silent signalled]
        exact shows
  refreshes _ _ _ shows := shows

/-- In every run of the edits and reloads of any clients, of changes of zone and of sessions, a
client that has subscribed holds rows that explain the flags: the daemon gives a spawn the flag of
a type exactly where a row of that type matches it, under the rules for all zones or for this one.
-/
theorem flags_explained {text zoneText : Option (List Char)} {f : Fed FilterRules Body}
    (reached : (feed read re).Reaches (fresh read re c zoneCase text zoneText) f) {id : String}
    {a : SessionAdapter Body} (there : f.sessions id = some a) (subscribed : a.subscribed = true)
    : ∃ rows,
        FeedSource.read held none a.bodies = some rows
          ∧ ∀ filterString level bit,
              (f.source.filterMask re filterString level).testBit bit = true
                ↔ ∃ row ∈ rows,
                    row.filterType.toNat = bit
                      ∧ row.isFiltered re (if row.perZone then zoneCase else c) filterString level
                        = true := by
  obtain ⟨sound, shows⟩ := followed.shows (sound_fresh text zoneText) reached
  refine ⟨_, shows id a there subscribed, fun filterString level bit => ?_⟩
  have placed {g : Filters} {perZone : Bool} {row : FilterRow}
      (listed : row ∈ g.appendFilterRules perZone)
      : row.perZone = perZone := by
    rw [Filters.appendFilterRules_eq] at listed
    obtain ⟨type, _, inside⟩ := List.mem_flatMap.mp listed
    obtain ⟨item, _, rfl⟩ := List.mem_map.mp inside
    rfl
  rw [filterMask, Nat.testBit_or, Bool.or_eq_true, sound.filters.testBit_iff false,
    sound.zoneFilters.testBit_iff true]
  constructor
  · rintro (⟨row, listed, type, filtered⟩ | ⟨row, listed, type, filtered⟩)
    · refine ⟨row, List.mem_append_left _ listed, type, ?_⟩
      rw [placed listed]
      exact filtered
    · refine ⟨row, List.mem_append_right _ listed, type, ?_⟩
      rw [placed listed]
      exact filtered
  · rintro ⟨row, listed, type, filtered⟩
    rcases List.mem_append.mp listed with there | there
    · rw [placed there] at filtered
      exact .inl ⟨row, there, type, filtered⟩
    · rw [placed there] at filtered
      exact .inr ⟨row, there, type, filtered⟩

/-- One client subscribes; another one's edits add a rule and a rule of the zone. -/
def ruleRun : List (FeedEvent FilterOp) :=
  [.opened "tab" .noop, .subscribed "tab" (fun _ => 1),
    .operate (.addFilterRule 0 "orc".toList false) (fun _ => 2),
    .operate (.addFilterRule 258 "rat".toList true) (fun _ => 3),
    .operate (.addFilterRule 7 "bat".toList true) (fun _ => 4)]

/-- The text of a pattern is what it matches. -/
def plainPatterns : RegularExpressions := ⟨fun _ => true, fun _ pattern string => pattern == string⟩

theorem flags_explained_orc
    : ∃ a : SessionAdapter Body, ∃ rows,
        FeedSource.read held none a.bodies = some rows
          ∧ ∃ row ∈ rows, row.filterType.toNat = 2
              ∧ row.isFiltered plainPatterns (if row.perZone then true else true) "rat".toList 5
                = true := by
  let daemon := fresh (fun _ => []) plainPatterns true true none none
  let f := Machine.exec (feed (fun _ => []) plainPatterns).happen (FeedSource.start daemon) ruleRun
  have live : (f.sessions "tab").map (·.subscribed) = some true := by decide +kernel
  obtain ⟨a, there, subscribed⟩ := Option.map_eq_some_iff.mp live
  have reached : (feed (fun _ => []) plainPatterns).Reaches daemon f :=
    Machine.reaches_exec (by simp [Machine.Permits, ruleRun])
  obtain ⟨rows, shown, explained⟩ := flags_explained reached there subscribed
  have flagged : (f.source.filterMask plainPatterns "rat".toList 5).testBit 2 = true := by
    decide +kernel
  exact ⟨a, rows, shown, (explained "rat".toList 5 2).mp flagged⟩

end FilterRules

end Scry
