import Scry.Filters.Marks
import Scry.Library.Replica

/-! Rules saved to a file and loaded from it. Patterns are written as they are, so that a rule
set comes back exactly where every pattern stands for itself in a document.
-/

namespace Scry

open Xml (Token)
open scoped Xml

-----------------------------------------------------------------------------------------
-- What is written
-----------------------------------------------------------------------------------------

namespace FilterItem

/-- The attributes of the levels that are written. -/
def levelAttributes (item : FilterItem) : List (List Char × List Char) :=
  (if item.minLevel = 0 then [] else [("min".toList, number item.minLevel)])
    ++ (if item.maxLevel = 0 then [] else [("max".toList, number item.maxLevel)])

def regexText (item : FilterItem) : List Char :=
  if item.pattern = [] then [] else Xml.element "regex".toList [] item.originalPattern

def levelText (item : FilterItem) : List Char :=
  if item.minLevel = 0 ∧ item.maxLevel = 0 then []
  else Xml.emptyElement "level".toList item.levelAttributes

/-- The element of a rule. -/
def text (item : FilterItem) : List Char :=
  Xml.element "oldfilter".toList [] (item.regexText ++ item.levelText)

theorem save_eq (item : FilterItem) (indent : List Char)
    : item.save indent = indent ++ (item.text ++ ['\n']) := by
  have regex
      : (if item.pattern = [] then []
          else "<regex>".toList ++ (item.originalPattern ++ "</regex>".toList))
        = item.regexText := by
    rw [regexText]
    split_ifs
    · rfl
    · simp [Xml.element, Xml.tag]
  have level
      : (if item.minLevel = 0 ∧ item.maxLevel = 0 then []
          else "<level".toList
            ++ ((if item.minLevel = 0 then []
                else " min=\"".toList ++ (number item.minLevel ++ "\"".toList))
              ++ ((if item.maxLevel = 0 then []
                  else " max=\"".toList ++ (number item.maxLevel ++ "\"".toList))
                ++ "/>".toList)))
        = item.levelText := by
    rw [levelText, levelAttributes]
    split_ifs
    all_goals simp [Xml.emptyElement, Xml.tag, Xml.attributeText, Xml.quote]
  rw [save, regex, level, text]
  simp [Xml.element, Xml.tag]

def regexTokens (item : FilterItem) : List Token :=
  if item.pattern = [] then []
  else [.startElement "regex".toList [], .characters item.originalPattern,
    .endElement "regex".toList]

def levelTokens (item : FilterItem) : List Token :=
  if item.minLevel = 0 ∧ item.maxLevel = 0 then []
  else [.startElement "level".toList item.levelAttributes, .endElement "level".toList]

def tokens (item : FilterItem) : List Token :=
  .startElement "oldfilter".toList []
    :: ((item.regexTokens ++ item.levelTokens) ++ [.endElement "oldfilter".toList])

theorem isDigit_number {n : UInt8} {c : Char} (member : c ∈ number n) : c.isDigit = true :=
  Nat.isDigit_of_mem_toDigits (by decide) (by decide) member

theorem isValue_number (n : UInt8) : Xml.IsValue (number n) := by
  intro c member
  have digit := isDigit_number member
  rw [Char.isDigit, Bool.and_eq_true, decide_eq_true_eq, decide_eq_true_eq] at digit
  have bounds : 48 ≤ c.toNat ∧ c.toNat ≤ 57 := digit
  refine ⟨.inr (.inr (.inr ⟨by omega, by omega, by omega⟩)), by omega, ?_⟩
  intro listed
  simp only [List.mem_cons, List.not_mem_nil, or_false] at listed
  rcases listed with rfl | rfl | rfl | rfl <;> exact absurd bounds (by decide)

theorem levelAttributes_listed {item : FilterItem} {a : List Char × List Char}
    (member : a ∈ item.levelAttributes)
    : (a.1 = "min".toList ∨ a.1 = "max".toList) ∧ ∃ n, a.2 = number n := by
  rw [levelAttributes] at member
  split_ifs at member
  all_goals
    simp only [List.append_nil, List.nil_append, List.mem_cons, List.not_mem_nil, or_false,
      List.mem_append] at member
  · exact ⟨.inr (congrArg Prod.fst member), _, congrArg Prod.snd member⟩
  · exact ⟨.inl (congrArg Prod.fst member), _, congrArg Prod.snd member⟩
  · rcases member with rfl | rfl
    · exact ⟨.inl rfl, _, rfl⟩
    · exact ⟨.inr rfl, _, rfl⟩

theorem areAttributes_levels (item : FilterItem) : Xml.AreAttributes item.levelAttributes := by
  constructor
  · intro a member
    rcases (levelAttributes_listed member).1 with same | same
    · rw [same]
      exact ⟨⟨by decide, by decide⟩, by decide⟩
    · rw [same]
      exact ⟨⟨by decide, by decide⟩, by decide⟩
  · intro a member
    obtain ⟨_, n, same⟩ := levelAttributes_listed member
    rw [same]
    exact isValue_number n
  · rw [levelAttributes]
    split_ifs
    all_goals simp

theorem areAttributes_nil : Xml.AreAttributes [] := ⟨nofun, nofun, List.nodup_nil⟩

/-- A rule whose pattern stands for itself is written as an element. -/
theorem isElement_text {item : FilterItem} (plain : Xml.IsPlain item.originalPattern)
    (marked : item.pattern = markHashOptional item.originalPattern)
    : Xml.IsElement item.text item.tokens := by
  have regexName : Xml.IsName "regex".toList := ⟨by decide, by decide⟩
  have levelName : Xml.IsName "level".toList := ⟨by decide, by decide⟩
  have level : Xml.Content item.levelText item.levelTokens := by
    rw [levelText, levelTokens]
    split_ifs
    · exact .nil
    · exact (Xml.isElement_empty levelName item.areAttributes_levels).alone
  have body : Xml.Content (item.regexText ++ item.levelText)
      (item.regexTokens ++ item.levelTokens) := by
    rw [regexText, regexTokens]
    split_ifs with none
    · exact level
    · have some : item.originalPattern ≠ [] := fun same =>
        none (marked.trans (markHashOptional_eq_nil.mpr same))
      exact (Xml.isElement_element regexName areAttributes_nil (plain.content some)).content level
  exact Xml.isElement_element ⟨by decide, by decide⟩ areAttributes_nil body

end FilterItem

/-- Lines that each end in a line break, seen as beginning with one, by induction on them. -/
theorem flatMap_lines {α : Type} (line : α → List Char) (items : List α)
    : '\n' :: items.flatMap (fun a => line a ++ ['\n'])
      = items.flatMap (fun a => '\n' :: line a) ++ ['\n'] := by
  induction items with
  | nil => rfl
  | cons a items ih =>
      rw [List.flatMap_cons, List.flatMap_cons, List.append_assoc, List.append_assoc,
        List.singleton_append, ih]
      rfl

namespace Filters

/-- What stands between two sections, and between two rules. -/
def sectionIndent : List Char := '\n' :: "    ".toList

def itemIndent : List Char := '\n' :: "        ".toList

def sectionText (types : FilterTypes) (entry : Nat × Filter) : List Char :=
  Xml.element "section".toList [("name".toList, types.name entry.1)]
    (entry.2.filterItems.flatMap (fun item => itemIndent ++ item.text) ++ sectionIndent)

/-- The root element of the file. -/
def text (f : Filters) : List Char :=
  Xml.element "seqfilters".toList []
    (f.filters.entries.flatMap (fun entry => sectionIndent ++ sectionText f.types entry) ++ ['\n'])

theorem section_eq (types : FilterTypes) (entry : Nat × Filter)
    : "    ".toList ++ ("<section name=\"".toList ++ (types.name entry.1 ++ ("\">\n".toList
        ++ (entry.2.save "    ".toList ++ ("    ".toList ++ "</section>\n".toList)))))
      = ("    ".toList ++ sectionText types entry) ++ ['\n'] := by
  have items : '\n' :: entry.2.save "    ".toList
      = entry.2.filterItems.flatMap (fun item => itemIndent ++ item.text) ++ ['\n'] := by
    have lines := flatMap_lines (fun item : FilterItem => "        ".toList ++ item.text)
      entry.2.filterItems
    simp only [List.append_assoc] at lines
    rw [Filter.save]
    simp only [FilterItem.save_eq]
    exact lines
  have body : '\n' :: (entry.2.save "    ".toList ++ "    ".toList)
      = entry.2.filterItems.flatMap (fun item => itemIndent ++ item.text) ++ sectionIndent := by
    rw [← List.cons_append, items, List.append_assoc, List.singleton_append, sectionIndent]
  rw [sectionText, ← body]
  generalize entry.2.save "    ".toList = saved
  simp [Xml.element, Xml.tag, Xml.attributeText, Xml.quote]

theorem save_eq (f : Filters)
    : f.save
      = Xml.prolog "seqfilters".toList "seqfilters.dtd".toList ++ (f.text ++ ['\n']) := by
  have header : "<?xml version=\"1.0\" encoding=\"UTF-8\"?>\n".toList
      ++ "<!DOCTYPE seqfilters SYSTEM \"seqfilters.dtd\">\n".toList
      = Xml.prolog "seqfilters".toList "seqfilters.dtd".toList := by
    decide
  have lines := flatMap_lines
    (fun entry => "    ".toList ++ sectionText f.types entry) f.filters.entries
  have root
      : "<seqfilters>\n".toList
          ++ (f.filters.entries.flatMap (fun entry =>
              ("    ".toList ++ sectionText f.types entry) ++ ['\n'])
            ++ "</seqfilters>\n".toList)
        = f.text ++ ['\n'] := by
    rw [text]
    simp only [sectionIndent, List.cons_append]
    rw [← lines]
    generalize f.filters.entries.flatMap _ = sections
    simp [Xml.element, Xml.tag]
  rw [← funext (section_eq f.types)] at root
  rw [← header, ← root]
  exact (List.append_assoc _ _ _).symm

end Filters

-----------------------------------------------------------------------------------------
-- What is read of it
-----------------------------------------------------------------------------------------

namespace LoadXmlContentHandler

variable {q : RegularExpressions}

theorem tokens_cons {h after : LoadXmlContentHandler} {t : Token} {rest : List Token}
    (same : h.token q t = some after)
    : h.tokens q (t :: rest) = after.tokens q rest := by
  rw [tokens, same]

/-- A number without a blank around it is all of the text that is converted. -/
theorem toUShort_number (n : UInt8) : (toUShort (FilterItem.number n)).toUInt8 = n := by
  have dense {s : List Char} (digits : ∀ c ∈ s, c.isDigit = true)
      : s.dropWhile Char.isWhitespace = s := by
    cases s with
    | nil => rfl
    | cons c s =>
        have digit := digits c List.mem_cons_self
        have visible : c.isWhitespace = false := by
          by_contra blank
          simp only [Char.isWhitespace, Bool.or_eq_true, decide_eq_true_eq, Bool.not_eq_false]
            at blank
          rcases blank with ((rfl | rfl) | rfl) | rfl <;> exact absurd digit (by decide)
        rw [List.dropWhile_cons_of_neg (by rw [visible]; decide)]
  have digits (c : Char) (member : c ∈ FilterItem.number n) : c.isDigit = true :=
    FilterItem.isDigit_number member
  have trimmed : (((FilterItem.number n).dropWhile Char.isWhitespace).reverse.dropWhile
      Char.isWhitespace).reverse = FilterItem.number n := by
    rw [dense digits, dense fun c member => digits c (List.mem_reverse.mp member),
      List.reverse_reverse]
  have unsigned : (FilterItem.number n).head? ≠ some '+' := by
    intro first
    obtain ⟨rest, begins⟩ := List.head?_eq_some_iff.mp first
    have digit := digits '+' (begins ▸ List.mem_cons_self)
    exact absurd digit (by decide)
  have value : Nat.ofDigitChars 10 (FilterItem.number n) 0 = n.toNat :=
    Nat.ofDigitChars_ten_toDigits
  have small := n.toNat_lt
  have converts : FilterItem.number n ≠ [] ∧ (FilterItem.number n).all Char.isDigit = true
      ∧ n.toNat < 65536 :=
    ⟨Nat.toDigits_ne_nil, List.all_eq_true.mpr digits, by omega⟩
  rw [toUShort]
  simp only [trimmed, if_neg unsigned, value, if_pos converts]
  apply UInt8.toNat_inj.mp
  rw [UInt16.toNat_toUInt8, UInt16.toNat_ofNat']
  omega

/-- The handler after a rule. -/
def added (q : RegularExpressions) (h : LoadXmlContentHandler) (item : FilterItem)
    : LoadXmlContentHandler :=
  { h with
    filters := (h.filters.addFilter q h.currentType item.originalPattern item.minLevel
      item.maxLevel).2
    currentFilterPattern := item.originalPattern
    currentMinLevel := item.minLevel
    currentMaxLevel := item.maxLevel }

theorem tokens_regex {h : LoadXmlContentHandler} {item : FilterItem}
    (marked : item.pattern = FilterItem.markHashOptional item.originalPattern)
    (outside : h.inRegex = false) (fresh : h.currentFilterPattern = []) (rest : List Token)
    : h.tokens q (item.regexTokens ++ rest)
      = { h with currentFilterPattern := item.originalPattern }.tokens q rest := by
  rw [FilterItem.regexTokens]
  split_ifs with none
  · rw [marked, FilterItem.markHashOptional_eq_nil] at none
    rw [none, ← fresh, List.nil_append]
  · have opens : h.token q (.startElement "regex".toList []) = some { h with inRegex := true } :=
      rfl
    rw [List.cons_append, tokens_cons opens, List.cons_append, tokens_cons rfl, List.cons_append,
      tokens_cons rfl, List.nil_append]
    simp only [characters, endElement, if_true]
    congr 1
    rw [← outside]
    rfl

theorem startElement_level (h : LoadXmlContentHandler) (attr : List (List Char × List Char))
    : h.startElement "level".toList attr
      = some { h with
          currentMinLevel :=
            if value attr "min".toList = [] then h.currentMinLevel
            else (toUShort (value attr "min".toList)).toUInt8
          currentMaxLevel :=
            if value attr "max".toList = [] then h.currentMaxLevel
            else (toUShort (value attr "max".toList)).toUInt8 } :=
  rfl

theorem tokens_level {h : LoadXmlContentHandler} {item : FilterItem}
    (noMin : h.currentMinLevel = 0) (noMax : h.currentMaxLevel = 0) (rest : List Token)
    : h.tokens q (item.levelTokens ++ rest)
      = { h with
          currentMinLevel := item.minLevel
          currentMaxLevel := item.maxLevel }.tokens q rest := by
  have number (n : UInt8) : FilterItem.number n ≠ [] := Nat.toDigits_ne_nil
  have min : (if value item.levelAttributes "min".toList = [] then h.currentMinLevel
      else (toUShort (value item.levelAttributes "min".toList)).toUInt8) = item.minLevel := by
    rw [FilterItem.levelAttributes]
    split_ifs with noValue none
    all_goals simp_all [value, toUShort_number]
  have max : (if value item.levelAttributes "max".toList = [] then h.currentMaxLevel
      else (toUShort (value item.levelAttributes "max".toList)).toUInt8) = item.maxLevel := by
    rw [FilterItem.levelAttributes]
    split_ifs
    all_goals simp_all [value, toUShort_number]
  rw [FilterItem.levelTokens]
  split_ifs with none
  · rw [none.1.trans noMin.symm, none.2.trans noMax.symm, List.nil_append]
  · have opens : h.token q (.startElement "level".toList item.levelAttributes)
        = some { h with currentMinLevel := item.minLevel, currentMaxLevel := item.maxLevel } := by
      rw [token, startElement_level, min, max]
    rw [List.cons_append, tokens_cons opens, List.cons_append, tokens_cons rfl, List.nil_append]
    rfl

theorem endElement_oldfilter {h : LoadXmlContentHandler}
    (known : h.currentType ≤ h.filters.types.maxType)
    : h.endElement q "oldfilter".toList
      = { h with
          filters := (h.filters.addFilter q h.currentType h.currentFilterPattern
            h.currentMinLevel h.currentMaxLevel).2 } := by
  have other : "oldfilter".toList ≠ "regex".toList := by decide
  simp only [endElement, if_neg other, if_true, if_pos known]

/-- The tokens of a rule add it. -/
theorem tokens_item {h : LoadXmlContentHandler} {item : FilterItem}
    (marked : item.pattern = FilterItem.markHashOptional item.originalPattern)
    (outside : h.inRegex = false) (known : h.currentType ≤ h.filters.types.maxType)
    (rest : List Token)
    : h.tokens q (item.tokens ++ rest) = (h.added q item).tokens q rest := by
  let cleared : LoadXmlContentHandler :=
    { h with currentFilterPattern := [], currentMinLevel := 0, currentMaxLevel := 0 }
  have opens : h.token q (.startElement "oldfilter".toList []) = some cleared := rfl
  have regex := tokens_regex (q := q) (h := cleared) marked outside rfl
  rw [FilterItem.tokens, List.cons_append, tokens_cons opens, List.append_assoc,
    List.append_assoc, regex, tokens_level rfl rfl, List.singleton_append, tokens_cons rfl]
  rw [endElement_oldfilter]
  · rfl
  · exact known

end LoadXmlContentHandler

-----------------------------------------------------------------------------------------
-- Rules that were added one by one
-----------------------------------------------------------------------------------------

/-- The rule compiled with regard to case, or without. -/
def FilterItem.withCase (c : Bool) (item : FilterItem) : FilterItem :=
  { item with caseSensitive := c }

def Filter.withCase (c : Bool) (f : Filter) : Filter := ⟨c, f.filterItems.map (·.withCase c)⟩

def Filters.withCase (c : Bool) (f : Filters) : Filters :=
  { f with caseSensitive := c, filters := f.filters.mapValues (·.withCase c) }

/-- The rules of a type as additions leave them: none has the name that another is added by. -/
structure Filter.Built (c : Bool) (f : Filter) : Prop where
  caseSensitive : f.caseSensitive = c
  items : ∀ item ∈ f.filterItems,
    item = .init item.originalPattern c item.minLevel item.maxLevel
  distinct : f.filterItems.Pairwise fun a b => a.pattern ≠ b.originalPattern
  some : f.filterItems ≠ []

/-- A mask with a name of letters that leads back to it. -/
structure FilterTypes.Named (types : FilterTypes) (mask : Nat) : Prop where
  letters : ∀ c ∈ types.name mask, c.isAlpha = true
  some : types.name mask ≠ []
  back : FilterTypes.mask (types.type (types.name mask)) = mask
  bounded : types.type (types.name mask) ≤ types.maxType
  valid : types.validMask mask = true

structure Filters.Built (f : Filters) : Prop where
  named : ∀ entry ∈ f.filters.entries, f.types.Named entry.1
  filters : ∀ entry ∈ f.filters.entries, entry.2.Built f.caseSensitive

/-- Added in turn again, the next rule is accepted. -/
theorem Filter.addFilter_next {q : RegularExpressions} {c c' : Bool} {f : Filter}
    {front back : List FilterItem} {item : FilterItem} (built : f.Built c)
    (whole : f.filterItems = front ++ item :: back)
    : ((⟨c', front.map (·.withCase c')⟩ : Filter).addFilter q item.originalPattern item.minLevel
        item.maxLevel).2
      = ⟨c', (front ++ [item]).map (·.withCase c')⟩ := by
  have own := built.items item (by rw [whole]; simp)
  have distinct := built.distinct
  rw [whole, List.pairwise_append] at distinct
  have unknown : (⟨c', front.map (·.withCase c')⟩ : Filter).findFilter item.originalPattern
      = none := by
    rw [Filter.findFilter, List.find?_eq_none]
    intro a member
    obtain ⟨a, listed, rfl⟩ := List.mem_map.mp member
    simpa [FilterItem.withCase] using distinct.2.2 a listed item List.mem_cons_self
  rw [Filter.addFilter, unknown, if_neg (by simp)]
  have compiled : FilterItem.init item.originalPattern c' item.minLevel item.maxLevel
      = item.withCase c' := by
    rw [own]
    rfl
  rw [compiled, List.map_append]
  rfl

namespace LoadXmlContentHandler

variable {q : RegularExpressions}

/-- One handler's reading of some tokens. -/
def Handles (q : RegularExpressions) (h : LoadXmlContentHandler) (ts : List Token)
    (after : LoadXmlContentHandler)
    : Prop :=
  ∀ rest, h.tokens q (ts ++ rest) = after.tokens q rest

theorem Handles.append {h mid after : LoadXmlContentHandler} {front back : List Token}
    (first : Handles q h front mid) (second : Handles q mid back after)
    : Handles q h (front ++ back) after := by
  intro rest
  rw [List.append_assoc, first, second]

theorem handles_one {h after : LoadXmlContentHandler} {t : Token}
    (same : h.token q t = some after)
    : Handles q h [t] after := by
  intro rest
  rw [List.singleton_append, tokens_cons same]

theorem handles_blank {h : LoadXmlContentHandler} (outside : h.inRegex = false) (text : List Char)
    : Handles q h [.characters text] h := by
  apply handles_one
  rw [token, characters, outside]
  rfl

section Items

variable {h : LoadXmlContentHandler} {c : Bool} {f : Filter} {item : FilterItem}
  {front back : List FilterItem}

/-- What is kept of a type for which there are some rules already. -/
def Stored (h : LoadXmlContentHandler) (items : List FilterItem) : Prop :=
  (h.filters.filters.find? (FilterTypes.mask h.currentType)).getD ⟨h.filters.caseSensitive, []⟩
    = ⟨h.filters.caseSensitive, items.map (·.withCase h.filters.caseSensitive)⟩

/-- The next rule of a section. -/
theorem filters_added (built : f.Built c) (whole : f.filterItems = front ++ item :: back)
    (valid : h.filters.types.validMask (FilterTypes.mask h.currentType) = true)
    (stored : h.Stored front)
    : (h.added q item).filters
      = { h.filters with
          filters := h.filters.filters.insert (FilterTypes.mask h.currentType)
            ⟨h.filters.caseSensitive,
              (front ++ [item]).map (·.withCase h.filters.caseSensitive)⟩ } := by
  rw [Stored] at stored
  rw [added]
  simp only [Filters.addFilter, if_pos valid, stored, Filter.addFilter_next built whole]

theorem handles_item (built : f.Built c) (whole : f.filterItems = front ++ item :: back)
    (outside : h.inRegex = false) (known : h.currentType ≤ h.filters.types.maxType)
    : Handles q h (.characters Filters.itemIndent :: item.tokens) (h.added q item) := by
  intro rest
  have own := built.items item (by rw [whole]; simp)
  have marked : item.pattern = FilterItem.markHashOptional item.originalPattern := by
    rw [own]
    rfl
  rw [List.cons_append, ← List.singleton_append, handles_blank outside,
    tokens_item marked outside known]

/-- The rules of a section, by induction on those that are not read yet. -/
theorem handles_items (built : f.Built c) (whole : f.filterItems = front ++ item :: back)
    (outside : h.inRegex = false) (known : h.currentType ≤ h.filters.types.maxType)
    (valid : h.filters.types.validMask (FilterTypes.mask h.currentType) = true)
    (stored : h.Stored front)
    : ∃ after,
        Handles q h
          ((item :: back).flatMap fun item => .characters Filters.itemIndent :: item.tokens) after
        ∧ after.inRegex = false
        ∧ after.filters
          = { h.filters with
              filters := h.filters.filters.insert (FilterTypes.mask h.currentType)
                (f.withCase h.filters.caseSensitive) } := by
  induction back generalizing h front item with
  | nil =>
      refine ⟨h.added q item, ?_, outside, ?_⟩
      · rw [List.flatMap_cons, List.flatMap_nil, List.append_nil]
        exact handles_item built whole outside known
      · rw [filters_added built whole valid stored, Filter.withCase, whole]
  | cons next back ih =>
      have onward : f.filterItems = (front ++ [item]) ++ next :: back := by
        rw [whole, List.append_assoc, List.singleton_append]
      have first := handles_item (q := q) built whole outside known
      have stores := filters_added (q := q) built whole valid stored
      have type : (h.added q item).currentType = h.currentType := rfl
      have later : (h.added q item).Stored (front ++ [item]) := by
        rw [Stored, stores, type, OrderedMap.find?_insert_self, Option.getD_some]
      have still : (h.added q item).inRegex = false := outside
      have types : (h.added q item).filters.types = h.filters.types := by rw [stores]
      obtain ⟨after, handles, outside, filters⟩ :=
        ih onward still (by rw [types, type]; exact known) (by rw [types, type]; exact valid) later
      refine ⟨after, ?_, outside, ?_⟩
      · rw [List.flatMap_cons]
        exact first.append handles
      · rw [filters, stores, type]
        dsimp only
        rw [OrderedMap.insert_insert]

end Items

/-- The tokens of a section. -/
def sectionTokens (types : FilterTypes) (entry : Nat × Filter) : List Token :=
  .startElement "section".toList [("name".toList, types.name entry.1)]
    :: ((entry.2.filterItems.flatMap (fun item => .characters Filters.itemIndent :: item.tokens)
        ++ [.characters Filters.sectionIndent])
      ++ [.endElement "section".toList])

/-- A section puts the rules of its type back. -/
theorem handles_section {h : LoadXmlContentHandler} {c : Bool} {entry : Nat × Filter}
    (built : entry.2.Built c) (named : h.filters.types.Named entry.1)
    (outside : h.inRegex = false) (absent : h.filters.filters.find? entry.1 = none)
    : ∃ after,
        Handles q h (.characters Filters.sectionIndent :: sectionTokens h.filters.types entry) after
        ∧ after.inRegex = false
        ∧ after.filters
          = { h.filters with
              filters := h.filters.filters.insert entry.1
                (entry.2.withCase h.filters.caseSensitive) } := by
  let inside : LoadXmlContentHandler :=
    { h with currentType := h.filters.types.type (h.filters.types.name entry.1) }
  have opens : h.token q
      (.startElement "section".toList [("name".toList, h.filters.types.name entry.1)])
      = some inside := by
    have value : value [("name".toList, h.filters.types.name entry.1)] "name".toList
        = h.filters.types.name entry.1 := by
      rw [LoadXmlContentHandler.value, List.find?_cons_of_pos (by simp)]
      rfl
    have section_ : h.startElement "section".toList
        [("name".toList, h.filters.types.name entry.1)]
        = if LoadXmlContentHandler.value [("name".toList, h.filters.types.name entry.1)]
              "name".toList = [] then none
          else some { h with
            currentType := h.filters.types.type (LoadXmlContentHandler.value
              [("name".toList, h.filters.types.name entry.1)] "name".toList) } :=
      rfl
    rw [token, section_, value, if_neg named.some]
  have mask : FilterTypes.mask inside.currentType = entry.1 := named.back
  obtain ⟨item, back, whole⟩ := List.exists_cons_of_ne_nil built.some
  have split : entry.2.filterItems = [] ++ item :: back := whole
  have stored : inside.Stored [] := by
    rw [Stored, mask]
    change (h.filters.filters.find? entry.1).getD _ = _
    rw [absent]
    rfl
  obtain ⟨after, handles, outside', filters⟩ :=
    handles_items (h := inside) built split outside named.bounded
      (by rw [mask]; exact named.valid) stored
  rw [mask] at filters
  refine ⟨{ after with currentType := 255 }, ?_, outside', filters⟩
  rw [← whole] at handles
  rw [sectionTokens, ← List.singleton_append]
  apply (handles_blank outside _).append
  rw [← List.singleton_append]
  apply (handles_one opens).append
  exact (handles.append (handles_blank outside' _)).append (handles_one rfl)

/-- The sections of a file, by induction on those that are not read yet. -/
theorem handles_sections {h : LoadXmlContentHandler} {c : Bool} {entries : List (Nat × Filter)}
    (built : ∀ entry ∈ entries, entry.2.Built c)
    (named : ∀ entry ∈ entries, h.filters.types.Named entry.1) (outside : h.inRegex = false)
    (absent : ∀ entry ∈ entries, h.filters.filters.find? entry.1 = none)
    (sorted : entries.Pairwise fun a b => a.1 < b.1)
    : ∃ after,
        Handles q h
          (entries.flatMap fun entry =>
            .characters Filters.sectionIndent :: sectionTokens h.filters.types entry) after
        ∧ after.inRegex = false
        ∧ after.filters
          = { h.filters with
              filters := Replica.putAll Prod.fst
                (fun entry : Nat × Filter => entry.2.withCase h.filters.caseSensitive)
                h.filters.filters entries } := by
  induction entries generalizing h with
  | nil => exact ⟨h, fun _ => rfl, outside, rfl⟩
  | cons entry entries ih =>
      obtain ⟨below, sorted⟩ := List.pairwise_cons.mp sorted
      obtain ⟨mid, first, still, stores⟩ :=
        handles_section (q := q) (built entry List.mem_cons_self)
          (named entry List.mem_cons_self) outside (absent entry List.mem_cons_self)
      have types : mid.filters.types = h.filters.types := by rw [stores]
      have others (other : Nat × Filter) (member : other ∈ entries)
          : mid.filters.filters.find? other.1 = none := by
        rw [stores]
        dsimp only
        rw [OrderedMap.find?_insert_of_ne _ _ (ne_of_gt (below other member))]
        exact absent other (List.mem_cons_of_mem entry member)
      obtain ⟨after, handles, outside, filters⟩ :=
        ih (fun other member => built other (List.mem_cons_of_mem entry member))
          (fun other member => types ▸ named other (List.mem_cons_of_mem entry member)) still others
          sorted
      refine ⟨after, ?_, outside, ?_⟩
      · rw [types] at handles
        rw [List.flatMap_cons]
        exact first.append handles
      · rw [filters, stores]
        rfl

end LoadXmlContentHandler

namespace Filters

/-- Every pattern stands for itself in a document. -/
def Plain (f : Filters) : Prop :=
  ∀ entry ∈ f.filters.entries, ∀ item ∈ entry.2.filterItems, Xml.IsPlain item.originalPattern

/-- The tokens of the root element. -/
def rootTokens (f : Filters) : List Token :=
  f.filters.entries.flatMap (fun entry =>
      .characters sectionIndent :: LoadXmlContentHandler.sectionTokens f.types entry)
    ++ [.characters ['\n']]

variable {f : Filters} {read : List Char → List Token} {q : RegularExpressions}

theorem isPlain_sectionIndent : Xml.IsPlain sectionIndent := by decide +kernel

theorem isPlain_itemIndent : Xml.IsPlain itemIndent := by decide +kernel

theorem isElement_section (built : f.Built) (plain : f.Plain) {entry : Nat × Filter}
    (member : entry ∈ f.filters.entries)
    : Xml.IsElement (sectionText f.types entry)
        (LoadXmlContentHandler.sectionTokens f.types entry) := by
  have named := built.named entry member
  have key : Xml.IsName "name".toList ∧ "name".toList ≠ "xmlns".toList :=
    ⟨⟨by decide, by decide⟩, by decide⟩
  have attributes : Xml.AreAttributes [("name".toList, f.types.name entry.1)] := by
    constructor
    · intro a listed
      rw [List.mem_singleton.mp listed]
      exact key
    · intro a listed
      rw [List.mem_singleton.mp listed]
      exact Xml.isValue_of_isAlpha named.letters
    · exact List.nodup_singleton _
  have sectionName : Xml.IsName "section".toList := ⟨by decide, by decide⟩
  apply Xml.isElement_element sectionName attributes
  refine Xml.content_flatMap isPlain_itemIndent (List.cons_ne_nil _ _) isPlain_sectionIndent
    (List.cons_ne_nil _ _) ?_
  intro item listed
  have own := (built.filters entry member).items item listed
  apply FilterItem.isElement_text (plain entry member item listed)
  rw [own]
  rfl

theorem content_text (built : f.Built) (plain : f.Plain)
    : Xml.Content
        (f.filters.entries.flatMap (fun entry => sectionIndent ++ sectionText f.types entry)
          ++ ['\n'])
        f.rootTokens :=
  Xml.content_flatMap isPlain_sectionIndent (List.cons_ne_nil _ _) (by decide)
    (List.cons_ne_nil _ _) fun _ member => isElement_section built plain member

/-- Plain rules are loaded as they were saved, under the case that the loading object has. -/
theorem load_save (conforms : Xml.Conforms read) (built : f.Built) (plain : f.Plain)
    {g : Filters} (types : g.types = f.types)
    : g.load read q (some f.save)
      = (true, { g with filters := f.filters.mapValues (·.withCase g.caseSensitive) }) := by
  have tokens : read f.save = .startDocument :: .dtd :: .startElement "seqfilters".toList []
      :: (f.rootTokens ++ [.endElement "seqfilters".toList, .endDocument]) := by
    have name : Xml.IsName "seqfilters".toList := ⟨by decide, by decide⟩
    have systemId : Xml.IsValue "seqfilters.dtd".toList := by decide
    rw [save_eq, text]
    exact conforms.wellFormed name systemId name FilterItem.areAttributes_nil
      (content_text built plain)
  let start : LoadXmlContentHandler := { filters := g.clear }
  have startTypes : start.filters.types = f.types := types
  obtain ⟨after, handles, outside, filters⟩ :=
    LoadXmlContentHandler.handles_sections (q := q) (h := start) built.filters
      (fun entry member => startTypes ▸ built.named entry member) rfl
      (fun _ _ => OrderedMap.find?_empty _) f.filters.sorted
  rw [startTypes] at handles
  have begins : LoadXmlContentHandler.tokens q ⟨g.clear, 255, [], 0, 0, false⟩ (read f.save)
      = start.tokens q
          (f.rootTokens ++ [.endElement "seqfilters".toList, .endDocument]) := by
    rw [tokens]
    exact rfl
  have ends : after.tokens q [.characters ['\n'], .endElement "seqfilters".toList, .endDocument]
      = (true, after) := by
    have blank := LoadXmlContentHandler.handles_blank (q := q) outside ['\n']
      [.endElement "seqfilters".toList, .endDocument]
    rw [List.singleton_append] at blank
    rw [blank]
    rfl
  rw [load, begins, rootTokens, List.append_assoc, handles, List.singleton_append, ends]
  simp only [filters]
  have stored : Replica.putAll Prod.fst
      (fun entry : Nat × Filter => entry.2.withCase g.caseSensitive) .empty f.filters.entries
      = f.filters.mapValues (·.withCase g.caseSensitive) :=
    Replica.putAll_entries f.filters _
  rw [← stored]
  rfl

-----------------------------------------------------------------------------------------
-- Every rule set that additions build
-----------------------------------------------------------------------------------------

/-- A call of `addFilter`. -/
structure Addition where
  type : UInt8
  pattern : List Char
  minLevel : UInt8
  maxLevel : UInt8

/-- The rules after some calls. -/
def addAll (q : RegularExpressions) (f : Filters) (calls : List Addition) : Filters :=
  calls.foldl (fun f c => (f.addFilter q c.type c.pattern c.minLevel c.maxLevel).2) f

/-- The registered types have names that lead back to them. -/
theorem named_registered {type : UInt8}
    (valid : FilterTypes.registered.validMask (FilterTypes.mask type) = true)
    : FilterTypes.registered.Named (FilterTypes.mask type) := by
  have small : type.toNat % 32 < 32 := Nat.mod_lt _ (by decide)
  rw [FilterTypes.mask] at valid ⊢
  generalize type.toNat % 32 = bit at valid small
  have taken : ∀ bit < 32, FilterTypes.registered.validMask (1 <<< bit) = true → bit < 7 := by
    decide +kernel
  have seven := taken bit small valid
  have letters : ∀ bit < 7, ∀ c ∈ FilterTypes.registered.name (1 <<< bit), c.isAlpha = true := by
    decide +kernel
  have some : ∀ bit < 7, FilterTypes.registered.name (1 <<< bit) ≠ [] := by decide +kernel
  have back : ∀ bit < 7, FilterTypes.mask (FilterTypes.registered.type
      (FilterTypes.registered.name (1 <<< bit))) = 1 <<< bit := by
    decide +kernel
  have bounded : ∀ bit < 7, FilterTypes.registered.type
      (FilterTypes.registered.name (1 <<< bit)) ≤ FilterTypes.registered.maxType := by
    decide +kernel
  exact ⟨letters bit seven, some bit seven, back bit seven, bounded bit seven, valid⟩

theorem filter_addFilter_built {c : Bool} {filter : Filter} {pattern : List Char}
    {minLevel maxLevel : UInt8} (built : filter.Built c ∨ filter = ⟨c, []⟩)
    : ((filter.addFilter q pattern minLevel maxLevel).2).Built c := by
  have case : filter.caseSensitive = c := by
    rcases built with built | rfl
    · exact built.caseSensitive
    · rfl
  have items : ∀ item ∈ filter.filterItems,
      item = .init item.originalPattern c item.minLevel item.maxLevel := by
    rcases built with built | rfl
    · exact built.items
    · exact nofun
  have distinct : filter.filterItems.Pairwise fun a b => a.pattern ≠ b.originalPattern := by
    rcases built with built | rfl
    · exact built.distinct
    · exact .nil
  rw [Filter.addFilter]
  split_ifs with known
  · rcases built with built | rfl
    · exact built
    · exact absurd known (by simp [Filter.findFilter])
  · constructor
    · exact case
    · intro item member
      rcases List.mem_append.mp member with old | new
      · exact items item old
      · rw [List.mem_singleton.mp new, case]
        rfl
    · refine List.pairwise_append.mpr ⟨distinct, List.pairwise_singleton _ _, ?_⟩
      intro a listed b new
      rw [List.mem_singleton.mp new]
      rw [Bool.not_eq_true, Option.isSome_eq_false_iff, Option.isNone_iff_eq_none,
        Filter.findFilter, List.find?_eq_none] at known
      intro same
      exact known a listed (beq_iff_eq.mpr same)
    · exact List.append_ne_nil_of_right_ne_nil _ (List.cons_ne_nil _ _)

/-- What an addition keeps. -/
theorem addFilter_built (built : f.Built) (types : f.types = .registered) (call : Addition)
    : ((f.addFilter q call.type call.pattern call.minLevel call.maxLevel).2).Built
      ∧ (f.addFilter q call.type call.pattern call.minLevel call.maxLevel).2.types = f.types
      ∧ (f.addFilter q call.type call.pattern call.minLevel call.maxLevel).2.caseSensitive
        = f.caseSensitive := by
  rw [addFilter]
  split_ifs with valid
  · refine ⟨⟨?_, ?_⟩, rfl, rfl⟩
    · intro entry member
      rcases OrderedMap.mem_entries_insert.mp member with rfl | ⟨old, _⟩
      · rw [types] at valid ⊢
        exact named_registered valid
      · exact built.named entry old
    · intro entry member
      rcases OrderedMap.mem_entries_insert.mp member with rfl | ⟨old, _⟩
      · apply filter_addFilter_built
        cases found : f.filters.find? (FilterTypes.mask call.type) with
        | none => exact .inr rfl
        | some filter => exact .inl (built.filters _ (OrderedMap.mem_of_find? found))
      · exact built.filters entry old
  · exact ⟨built, rfl, rfl⟩

/-- By induction on the calls. -/
theorem addAll_built (built : f.Built) (types : f.types = .registered) (calls : List Addition)
    : (f.addAll q calls).Built ∧ (f.addAll q calls).types = .registered
      ∧ (f.addAll q calls).caseSensitive = f.caseSensitive := by
  induction calls generalizing f with
  | nil => exact ⟨built, types, rfl⟩
  | cons call calls ih =>
      obtain ⟨built, same, case⟩ := addFilter_built (q := q) built types call
      obtain ⟨built, types, sameCase⟩ := ih built (same.trans types)
      exact ⟨built, types, sameCase.trans case⟩

theorem new_built (types : FilterTypes) (c : Bool) : (new types c).Built :=
  ⟨nofun, nofun⟩

end Filters

end Scry
