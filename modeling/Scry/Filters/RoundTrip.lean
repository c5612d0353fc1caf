import Scry.Filters.FilterFile

/-! Exactly which rule sets come back from their file.
A pattern that does not stand for itself can only be read as the text of a longer one that does
not either, so that the longest of them is lost.
-/

namespace Scry

open Xml (Token)
open scoped Xml

-----------------------------------------------------------------------------------------
-- Where the loaded patterns come from
-----------------------------------------------------------------------------------------

namespace Filters

/-- Every pattern has a property. -/
def AllPatterns (f : Filters) (P : List Char → Prop) : Prop :=
  ∀ entry ∈ f.filters.entries, ∀ item ∈ entry.2.filterItems, P item.originalPattern

variable {f : Filters} {q : RegularExpressions} {P : List Char → Prop}

theorem allPatterns_new (types : FilterTypes) (c : Bool) : (new types c).AllPatterns P := nofun

theorem AllPatterns.addFilter (all : f.AllPatterns P) {pattern : List Char} (new : P pattern)
    (type minLevel maxLevel : UInt8)
    : (f.addFilter q type pattern minLevel maxLevel).2.AllPatterns P := by
  rw [Filters.addFilter]
  split_ifs
  · intro entry member item listed
    rcases OrderedMap.mem_entries_insert.mp member with rfl | ⟨old, _⟩
    · have stored : ∀ item ∈ ((f.filters.find? (FilterTypes.mask type)).getD
          ⟨f.caseSensitive, []⟩).filterItems, P item.originalPattern := by
        cases found : f.filters.find? (FilterTypes.mask type) with
        | none => exact fun item listed => absurd listed List.not_mem_nil
        | some filter => exact all _ (OrderedMap.mem_of_find? found)
      simp only [Filter.addFilter] at listed
      split_ifs at listed
      · exact stored item listed
      · rcases List.mem_append.mp listed with old | same
        · exact stored item old
        · rw [List.mem_singleton.mp same]
          exact new
    · exact all entry old item listed
  · exact all

theorem AllPatterns.addAll (all : f.AllPatterns P) (calls : List Addition)
    (news : ∀ call ∈ calls, P call.pattern)
    : (f.addAll q calls).AllPatterns P := by
  induction calls generalizing f with
  | nil => exact all
  | cons call calls ih =>
      apply ih
      · exact all.addFilter (news call List.mem_cons_self) _ _ _
      · exact fun other member => news other (List.mem_cons_of_mem call member)

end Filters

namespace LoadXmlContentHandler

variable {h after : LoadXmlContentHandler} {q : RegularExpressions} {P : List Char → Prop}

/-- The pattern that is read, and every pattern that was added, have a property. -/
def AllPatterns (h : LoadXmlContentHandler) (P : List Char → Prop) : Prop :=
  P h.currentFilterPattern ∧ h.filters.AllPatterns P

/-- A token keeps the property where its text has it. -/
theorem AllPatterns.token (all : h.AllPatterns P) (empty : P []) {t : Token}
    (text : ∀ text, t = .characters text → P text) (same : h.token q t = some after)
    : after.AllPatterns P := by
  cases t with
  | startDocument =>
      obtain rfl := Option.some.inj same
      exact ⟨empty, all.2⟩
  | startElement name attributes =>
      rw [LoadXmlContentHandler.token, startElement] at same
      split_ifs at same
      · obtain rfl := Option.some.inj same
        exact ⟨empty, all.2⟩
      all_goals
        obtain rfl := Option.some.inj same
        exact all
  | endElement name =>
      obtain rfl := Option.some.inj same
      have inner : AllPatterns
          (if name = "regex".toList then { h with inRegex := false } else h) P := by
        split_ifs
        · exact all
        · exact all
      rw [endElement]
      generalize (if name = "regex".toList then { h with inRegex := false } else h) = left at inner ⊢
      split_ifs
      · exact ⟨inner.1, inner.2.addFilter inner.1 _ _ _⟩
      · exact inner
      · exact inner
      · exact inner
  | characters text' =>
      obtain rfl := Option.some.inj same
      rw [characters]
      split_ifs
      · exact ⟨text text' rfl, all.2⟩
      · exact all
  | invalid => cases same
  | endDocument | dtd | comment | entityReference | processingInstruction =>
      obtain rfl := Option.some.inj same
      exact all

/-- So do all tokens, by induction on them. -/
theorem AllPatterns.tokens (all : h.AllPatterns P) (empty : P []) {ts : List Token}
    (texts : ∀ text, .characters text ∈ ts → P text)
    : (h.tokens q ts).2.AllPatterns P := by
  induction ts generalizing h with
  | nil => exact all
  | cons t ts ih =>
      rw [LoadXmlContentHandler.tokens]
      cases same : h.token q t with
      | none => exact all
      | some mid =>
          apply ih
          · exact all.token empty (fun text here => texts text (here ▸ List.mem_cons_self)) same
          · exact fun text member => texts text (List.mem_cons_of_mem t member)

end LoadXmlContentHandler

/-- Every loaded pattern is empty or a text of the file. -/
theorem Filters.allPatterns_load (read : List Char → List Token) (q : RegularExpressions)
    (f : Filters) (text : List Char)
    : (f.load read q (some text)).2.AllPatterns fun pattern =>
        pattern = [] ∨ .characters pattern ∈ read text := by
  have begins : LoadXmlContentHandler.AllPatterns ⟨f.clear, 255, [], 0, 0, false⟩
      (fun pattern => pattern = [] ∨ .characters pattern ∈ read text) :=
    ⟨.inl rfl, nofun⟩
  exact (begins.tokens (.inl rfl) fun _ member => .inr member).2

-----------------------------------------------------------------------------------------
-- Where the marks of a file stand
-----------------------------------------------------------------------------------------

/-- What a reference and a section of raw text are found by. -/
def marks : List Char := ['&', '[']

/-- A character of a file that stands in a pattern: the pattern around it, what is in front of
the pattern, and what is behind it on the line.
-/
def InPattern (patterns : List (List Char)) (before : List Char) (c : Char) (after : List Char)
    : Prop :=
  ∃ front back start line rest, front ++ c :: back ∈ patterns
    ∧ before = start ++ ("<regex>".toList ++ front)
    ∧ after = back ++ ('<' :: (line ++ '\n' :: rest)) ∧ ']' ∉ line

/-- Every mark stands in a pattern. -/
def Marked (patterns : List (List Char)) (s : List Char) : Prop :=
  ∀ before c after, s = before ++ c :: after → c ∈ marks → InPattern patterns before c after

theorem append_eq_append_cons {s t before after : List Char} {c : Char}
    (same : s ++ t = before ++ c :: after)
    : (∃ later, s = before ++ c :: later ∧ after = later ++ t)
      ∨ ∃ earlier, t = earlier ++ c :: after ∧ before = s ++ earlier := by
  rcases List.append_eq_append_iff.mp same with ⟨more, rfl, rest⟩ | ⟨more, rfl, rest⟩
  · exact .inr ⟨more, rest, rfl⟩
  · rcases List.cons_eq_append_iff.mp rest with ⟨rfl, rfl⟩ | ⟨later, rfl, rfl⟩
    · exact .inr ⟨[], rfl, by rw [List.append_nil, List.append_nil]⟩
    · exact .inl ⟨later, rfl, rfl⟩

section Marked

variable {patterns : List (List Char)} {s t : List Char}

theorem marked_of_free (free : ∀ c ∈ marks, c ∉ s) : Marked patterns s := by
  rintro before c after rfl mark
  exact absurd (List.mem_append_right before List.mem_cons_self) (free c mark)

theorem Marked.append (left : Marked patterns s) (right : Marked patterns t)
    : Marked patterns (s ++ t) := by
  intro before c after same mark
  rcases append_eq_append_cons same with ⟨later, here, rfl⟩ | ⟨earlier, here, rfl⟩
  · obtain ⟨front, back, start, line, rest, listed, first, rfl, closed⟩ :=
      left before c later here mark
    exact ⟨front, back, start, line, rest ++ t, listed, first, by simp, closed⟩
  · obtain ⟨front, back, start, line, rest, listed, rfl, last, closed⟩ :=
      right earlier c after here mark
    exact ⟨front, back, s ++ start, line, rest, listed, by simp, last, closed⟩

theorem marked_flatMap {α : Type} {text : α → List Char} {items : List α}
    (each : ∀ a ∈ items, Marked patterns (text a))
    : Marked patterns (items.flatMap text) := by
  induction items with
  | nil => exact marked_of_free fun _ _ => List.not_mem_nil
  | cons a items ih =>
      rw [List.flatMap_cons]
      apply (each a List.mem_cons_self).append
      exact ih fun b member => each b (List.mem_cons_of_mem a member)

end Marked

namespace FilterItem

variable {patterns : List (List Char)}

/-- What is written of the levels has neither a mark nor a closing bracket. -/
theorem not_mem_levelText {item : FilterItem} {c : Char} (bracket : c ∈ ['\r', ']', '&', '['])
    : c ∉ item.levelText := by
  have other {s : List Char} (free : ∀ c ∈ ['\r', ']', '&', '['], c ∉ s) : c ∉ s := free c bracket
  rw [levelText]
  split_ifs
  · exact List.not_mem_nil
  · intro member
    rw [Xml.emptyElement, List.mem_cons, List.mem_append, Xml.mem_tag_iff] at member
    rcases member with rfl | (inName | ⟨a, listed, separator | inKey | inValue⟩) | closing
    · exact absurd bracket (by decide)
    · exact other (by decide) inName
    · exact other (by decide) separator
    · rcases item.levelAttributes_listed listed with ⟨same | same, _⟩
      · exact other (by decide) (same ▸ inKey)
      · exact other (by decide) (same ▸ inKey)
    · obtain ⟨_, n, same⟩ := item.levelAttributes_listed listed
      have digit := isDigit_number (same ▸ inValue)
      simp only [List.mem_cons, List.not_mem_nil, or_false] at bracket
      rcases bracket with rfl | rfl | rfl | rfl <;> exact absurd digit (by decide)
    · exact other (by decide) closing

theorem marked_save {item : FilterItem} {indent : List Char} (blank : ∀ c ∈ indent, c = ' ')
    (listed : item.originalPattern ∈ patterns)
    : Marked patterns (item.save indent) := by
  have free {s : List Char} (free : ∀ c ∈ marks, c ∉ s) : Marked patterns s := marked_of_free free
  have indented : Marked patterns indent := by
    apply marked_of_free
    intro c mark member
    exact absurd (blank c member ▸ mark) (by decide)
  have level : Marked patterns item.levelText := by
    apply marked_of_free
    exact fun c mark => not_mem_levelText (List.mem_cons_of_mem _ (List.mem_cons_of_mem _ mark))
  rw [save_eq]
  apply indented.append
  by_cases none : item.pattern = []
  · have shape : item.text ++ ['\n']
        = "<oldfilter>".toList ++ (item.levelText ++ "</oldfilter>\n".toList) := by
      simp [text, regexText, none, Xml.element, Xml.tag]
    rw [shape]
    exact (free (by decide)).append (level.append (free (by decide)))
  · have shape : item.text ++ ['\n']
        = "<oldfilter>".toList ++ ("<regex>".toList ++ (item.originalPattern
            ++ ('<' :: (("/regex>".toList ++ (item.levelText ++ "</oldfilter>".toList))
              ++ ['\n'])))) := by
      simp [text, regexText, none, Xml.element, Xml.tag]
    have line {c : Char} (bracket : c ∈ [']', '&', '['])
        : c ∉ "/regex>".toList ++ (item.levelText ++ "</oldfilter>".toList) := by
      have other {s : List Char} (free : ∀ c ∈ [']', '&', '['], c ∉ s) : c ∉ s := free c bracket
      rw [List.mem_append, List.mem_append, not_or, not_or]
      exact ⟨other (by decide), not_mem_levelText (List.mem_cons_of_mem _ bracket),
        other (by decide)⟩
    rw [shape]
    apply (free (by decide)).append
    intro before c after same mark
    rcases append_eq_append_cons same with ⟨later, inTag, _⟩ | ⟨earlier, here, rfl⟩
    · have member : c ∈ "<regex>".toList := inTag ▸ List.mem_append_right _ List.mem_cons_self
      exact absurd member ((by decide : ∀ c ∈ marks, c ∉ "<regex>".toList) c mark)
    · rcases append_eq_append_cons here with ⟨later, inPattern, rfl⟩ | ⟨more, inRest, rfl⟩
      · exact ⟨earlier, later, [], _, [], inPattern ▸ listed, rfl, rfl, line (by decide)⟩
      · have member : c ∈ '<' :: (("/regex>".toList ++ (item.levelText
            ++ "</oldfilter>".toList)) ++ ['\n']) :=
          inRest ▸ List.mem_append_right _ List.mem_cons_self
        rcases List.mem_cons.mp member with rfl | member
        · exact absurd mark (by decide)
        · rcases List.mem_append.mp member with inLine | ends
          · exact absurd inLine (line (List.mem_cons_of_mem _ mark))
          · exact absurd (List.mem_singleton.mp ends ▸ mark) (by decide)

theorem return_not_mem_save {item : FilterItem} {indent : List Char}
    (blank : ∀ c ∈ indent, c = ' ') (visible : '\r' ∉ item.originalPattern)
    : '\r' ∉ item.save indent := by
  intro member
  rw [save_eq, List.mem_append, List.mem_append, text] at member
  rcases member with inIndent | inText | ends
  · exact absurd (blank _ inIndent) (by decide)
  · simp [Xml.element, Xml.tag] at inText
    rcases inText with inRegex | inLevel
    · rw [regexText] at inRegex
      split_ifs at inRegex
      · exact absurd inRegex List.not_mem_nil
      · simp [Xml.element, Xml.tag] at inRegex
        exact visible inRegex
    · exact not_mem_levelText (by decide) inLevel
  · exact absurd ends (by decide)

end FilterItem

namespace Filters

variable {f : Filters} {patterns : List (List Char)}

/-- Every mark of the file stands in a pattern. -/
theorem marked_save (built : f.Built) (listed : f.AllPatterns (· ∈ patterns))
    : Marked patterns f.save := by
  have free {s : List Char} (free : ∀ c ∈ marks, c ∉ s) : Marked patterns s := marked_of_free free
  unfold save
  extract_lets indent
  have blank : Marked patterns indent := free (by decide +kernel)
  refine (free (by decide)).append ((free (by decide)).append ((free (by decide)).append ?_))
  refine (marked_flatMap ?_).append (free (by decide))
  intro entry member
  have name : Marked patterns (f.types.name entry.1) := by
    apply marked_of_free
    intro c mark inName
    have letter := (built.named entry member).letters c inName
    rcases List.mem_pair.mp mark with rfl | rfl <;> exact absurd letter (by decide)
  have items : Marked patterns (entry.2.save indent) := by
    apply marked_flatMap
    intro item inItems
    exact FilterItem.marked_save (by decide +kernel) (listed entry member item inItems)
  exact blank.append ((free (by decide)).append (name.append ((free (by decide)).append
    (items.append (blank.append (free (by decide)))))))

end Filters

-----------------------------------------------------------------------------------------
-- What is read as a pattern that does not stand for itself
-----------------------------------------------------------------------------------------

section Longer

variable {patterns : List (List Char)} {doc text : List Char}

/-- No part of a tag ends it. -/
theorem prefix_regex {front back : List Char} (whole : "<regex>".toList = front ++ back)
    (some : back ≠ []) {c : Char} (closing : c ∈ ['>', ';', '&'])
    : c ∉ front := by
  intro member
  have split : front ++ back = "<regex".toList ++ ['>'] := whole.symm
  obtain ⟨init, last, rfl⟩ := List.eq_nil_or_concat back |>.resolve_left some
  rw [List.concat_eq_append, ← List.append_assoc] at split
  have front' := (List.append_inj' split rfl).1
  have inTag : c ∈ "<regex".toList := front' ▸ List.mem_append_left init member
  exact absurd inTag ((by decide : ∀ c ∈ ['>', ';', '&'], c ∉ "<regex".toList) c closing)

/-- Text with a reference in it stands in one pattern. -/
theorem longer_of_reference (marked : Marked patterns doc) {before source after : List Char}
    (whole : doc = before ++ (source ++ after)) (free : '<' ∉ source)
    (begins : Xml.Begins before source) (reference : '&' ∈ source)
    : ∃ pattern ∈ patterns, source <:+: pattern := by
  obtain ⟨left, right, rfl⟩ := List.append_of_mem reference
  have at_ : doc = (before ++ left) ++ '&' :: (right ++ after) := by
    rw [whole]
    simp only [List.append_assoc, List.cons_append]
  obtain ⟨front, back, start, line, rest, listed, first, last, _⟩ :=
    marked _ _ _ at_ (by decide)
  refine ⟨_, listed, ?_⟩
  -- No tag begins in the source, so that it ends in the pattern.
  obtain ⟨more, rfl⟩ : ∃ more, back = right ++ more := by
    rcases append_eq_append_cons last with ⟨later, rfl, _⟩ | ⟨more, _, same⟩
    · exact absurd (by simp) free
    · exact ⟨more, same⟩
  suffices ∃ init, front = init ++ left by
    obtain ⟨init, rfl⟩ := this
    exact ⟨init, more, by simp⟩
  rw [← List.append_assoc] at first
  rcases List.append_eq_append_iff.mp first with ⟨part, tag, same⟩ | ⟨init, _, same⟩
  · -- Otherwise it would begin inside the tag, and what begins there is no text.
    have opens : '<' ∉ part := fun member => free (by simp [same, member])
    by_cases none : part = []
    · exact ⟨[], by rw [same, none]; rfl⟩
    rcases List.append_eq_append_iff.mp tag with ⟨inTag, before', split⟩ | ⟨inTag, _, split⟩
    · by_cases nothing : inTag = []
      · rw [nothing, List.nil_append] at split
        exact absurd (split ▸ by decide) opens
      have outside {c : Char} (closing : c ∈ ['>', ';', '&']) : before.getLast? ≠ some c := by
        intro last
        rw [before', List.getLast?_append_of_ne_nil _ nothing] at last
        exact prefix_regex split none closing (List.mem_of_getLast? last)
      rcases begins with first | last | last
      · obtain ⟨c, part, rfl⟩ := List.exists_cons_of_ne_nil none
        rw [same, List.cons_append, List.cons_append, List.head?_cons] at first
        have inRegex : c ∈ "<regex>".toList := split ▸ List.mem_append_right _ List.mem_cons_self
        exact absurd inRegex (Option.some.inj first ▸ by decide)
      · exact absurd last (outside (by decide))
      · exact absurd last (outside (by decide))
    · exact absurd (split ▸ List.mem_append_right _ (by decide)) opens
  · exact ⟨init, same⟩

/-- A section of raw text stands in one pattern. -/
theorem longer_of_cdata (marked : Marked patterns doc) {before after : List Char}
    (whole : doc = before ++ (("<![CDATA[".toList ++ (text ++ Xml.cdataEnd)) ++ after))
    (visible : '\n' ∉ text)
    : ∃ pattern ∈ patterns, "<![CDATA[".toList ++ (text ++ Xml.cdataEnd) <:+: pattern := by
  have at_ : doc = (before ++ ['<', '!'])
      ++ '[' :: (("CDATA[".toList ++ (text ++ Xml.cdataEnd)) ++ after) := by
    rw [whole]
    simp
  obtain ⟨front, back, start, line, rest, listed, first, last, closed⟩ :=
    marked _ _ _ at_ (by decide)
  refine ⟨_, listed, ?_⟩
  obtain ⟨init, rfl⟩ : ∃ init, front = init ++ ['<', '!'] := by
    rw [← List.append_assoc] at first
    rcases List.append_eq_append_iff.mp first with ⟨part, tag, same⟩ | ⟨init, _, same⟩
    · -- The tag in front of the pattern ends in another bracket.
      rcases List.eq_nil_or_concat part with rfl | ⟨part, c, rfl⟩
      · exact ⟨[], same.symm⟩
      · rw [List.concat_eq_append] at tag same
        have closes : c = '>' := by
          have ends : start ++ "<regex>".toList = (start ++ "<regex".toList) ++ ['>'] := by simp
          rw [ends, ← List.append_assoc] at tag
          exact (List.singleton_inj.mp (List.append_inj' tag rfl).2).symm
        have member : c ∈ ['<', '!'] := by simp [same]
        exact absurd (closes ▸ member) (by decide)
    · exact ⟨init, same⟩
  obtain ⟨more, rfl⟩ : ∃ more, back = ("CDATA[".toList ++ (text ++ Xml.cdataEnd)) ++ more := by
    rcases append_eq_append_cons last with ⟨later, inside, tail⟩ | ⟨more, _, same⟩
    · -- Otherwise the section would go on to the next line.
      exfalso
      rcases append_eq_append_cons inside with ⟨_, opens, _⟩ | ⟨earlier, inside, _⟩
      · have member : '<' ∈ "CDATA[".toList := opens ▸ List.mem_append_right _ List.mem_cons_self
        exact absurd member (by decide)
      rcases append_eq_append_cons inside with ⟨later', opens, rfl⟩ | ⟨_, opens, _⟩
      · rw [List.append_assoc] at tail
        rcases append_eq_append_cons tail.symm with ⟨_, breaks, _⟩ | ⟨skipped, ends, inLine⟩
        · exact visible (by rw [opens, breaks]; simp)
        · have bracket : Xml.cdataEnd ++ after = ']' :: ("]>".toList ++ after) := rfl
          rw [bracket] at ends
          cases skipped with
          | nil => exact absurd (List.cons.inj ends).1 (by decide)
          | cons c skipped =>
              have same : ']' = c := (List.cons.inj ends).1
              exact closed (by rw [inLine, ← same]; simp)
      · have member : '<' ∈ Xml.cdataEnd := opens ▸ List.mem_append_right _ List.mem_cons_self
        exact absurd member (by decide)
    · exact ⟨more, same⟩
  exact ⟨init, more, by simp⟩

end Longer

/-- A control character. -/
def IsControl (c : Char) : Prop := c.toNat < 32 ∨ (127 ≤ c.toNat ∧ c.toNat < 160)

theorem exists_longer {patterns : List (List Char)} {doc text : List Char}
    (marked : Marked patterns doc) (stands : Xml.StandsIn doc text)
    (visible : ∀ c ∈ text, ¬ IsControl c) (notPlain : ¬ Xml.IsPlain text)
    : ∃ pattern ∈ patterns, text.length < pattern.length ∧ ¬ Xml.IsPlain pattern := by
  have absent {c : Char} (control : IsControl c) : c ∉ text := fun member =>
    visible c member control
  obtain ⟨before, source, after, whole, ⟨_, rfl, _⟩ | ⟨standsFor, noEnd, begins⟩⟩ := stands
  · obtain ⟨pattern, listed, within⟩ := longer_of_cdata marked whole (absent (.inl (by decide)))
    refine ⟨pattern, listed, ?_, ?_⟩
    · have bound := within.length_le
      rw [List.length_append, List.length_append] at bound
      have opening : "<![CDATA[".toList.length = 9 := rfl
      omega
    · intro plain
      have member : '<' ∈ pattern := within.subset (List.mem_append_left _ (by decide))
      exact (plain.chars _ member).2.1 rfl
  · obtain ⟨free, _, shorter⟩ := standsFor.bounds
    by_cases reference : '&' ∈ source
    · obtain ⟨pattern, listed, within⟩ := longer_of_reference marked whole free begins reference
      refine ⟨pattern, listed, lt_of_lt_of_le (shorter reference) within.length_le, ?_⟩
      intro plain
      exact (plain.chars _ (within.subset reference)).2.2.1 rfl
    · obtain ⟨rfl, chars⟩ := standsFor.eq_of_free reference
      refine absurd ⟨?_, noEnd⟩ notPlain
      intro c member
      obtain ⟨isChar, opens, ampersand⟩ := chars c member
      exact ⟨isChar, opens, ampersand, fun same => absent (.inl (by decide)) (same ▸ member)⟩

/-- Patterns that are all read again are all plain: the longest one that is not would have to be
read out of a longer one.
-/
theorem plain_of_standsIn {patterns : List (List Char)} {doc : List Char}
    (marked : Marked patterns doc) (visible : ∀ p ∈ patterns, ∀ c ∈ p, ¬ IsControl c)
    (stands : ∀ p ∈ patterns, p = [] ∨ Xml.StandsIn doc p)
    : ∀ p ∈ patterns, Xml.IsPlain p := by
  by_contra some
  push Not at some
  obtain ⟨first, listed, notPlain⟩ := some
  have longer (n : Nat) : ∃ p ∈ patterns, n ≤ p.length ∧ ¬ Xml.IsPlain p := by
    induction n with
    | zero => exact ⟨first, listed, Nat.zero_le _, notPlain⟩
    | succ n ih =>
        obtain ⟨p, listed, long, notPlain⟩ := ih
        rcases stands p listed with rfl | standsIn
        · exact absurd Xml.isPlain_nil notPlain
        · obtain ⟨q, listed, more, notPlain⟩ :=
            exists_longer marked standsIn (visible p listed) notPlain
          exact ⟨q, listed, by omega, notPlain⟩
  obtain ⟨p, listed, long, _⟩ := longer (patterns.flatten.length + 1)
  have bound := (List.sublist_flatten_of_mem listed).length_le
  omega

namespace Filters

/-- The rules by type: what they were added with. -/
def rules (f : Filters) : List (Nat × List (List Char × UInt8 × UInt8)) :=
  f.filters.entries.map fun entry =>
    (entry.1, entry.2.filterItems.map fun item =>
      (item.originalPattern, item.minLevel, item.maxLevel))

/-- Saved and loaded into another object, the rules are the same, and so is what they match. -/
structure RoundTrips (read : List Char → List Token) (q : RegularExpressions) (f g : Filters)
    : Prop where
  rules : (g.load read q (some f.save)).2.rules = f.rules
  filterMask (filterString : List Char) (level : UInt8)
    : (g.load read q (some f.save)).2.filterMask q filterString level
      = f.filterMask q filterString level

/-- With regard to case or without, the rules match the same. -/
def MatchesAlike (q : RegularExpressions) (f : Filters) (caseSensitive : Bool) : Prop :=
  ∀ filterString level,
    (f.withCase caseSensitive).filterMask q filterString level
      = f.filterMask q filterString level

variable {f g : Filters} {read : List Char → List Token} {q : RegularExpressions}

theorem allPatterns_iff {P : List Char → Prop}
    : f.AllPatterns P ↔ ∀ entry ∈ f.rules, ∀ rule ∈ entry.2, P rule.1 := by
  simp only [AllPatterns, rules, List.forall_mem_map]

theorem return_not_mem_save (built : f.Built) (visible : f.AllPatterns ('\r' ∉ ·))
    : '\r' ∉ f.save := by
  have other {s : List Char} (free : '\r' ∉ s) : '\r' ∉ s := free
  unfold save
  extract_lets indent
  have blank : '\r' ∉ indent := by decide +kernel
  simp only [List.mem_append, List.mem_flatMap, not_or, not_exists, not_and]
  refine ⟨by decide, by decide, by decide, ?_, by decide⟩
  intro entry member
  refine ⟨blank, by decide, ?_, by decide, ?_, blank, by decide⟩
  · intro inName
    exact absurd ((built.named entry member).letters _ inName) (by decide)
  · intro inItems
    obtain ⟨item, listed, inItem⟩ := List.mem_flatMap.mp inItems
    exact FilterItem.return_not_mem_save (by decide +kernel) (visible entry member item listed)
      inItem

theorem rules_mapValues (f : Filters) (c : Bool)
    : rules { g with filters := f.filters.mapValues (·.withCase c) } = f.rules := by
  simp [rules, OrderedMap.mapValues, Filter.withCase, FilterItem.withCase]

/-- Rules that come back are plain. -/
theorem plain_of_rules (conforms : Xml.Conforms read) (built : f.Built)
    (visible : f.AllPatterns fun p => ∀ c ∈ p, ¬ IsControl c)
    (same : (g.load read q (some f.save)).2.rules = f.rules)
    : f.Plain := by
  let patterns := f.filters.entries.flatMap fun entry =>
    entry.2.filterItems.map FilterItem.originalPattern
  have listed : f.AllPatterns (· ∈ patterns) := by
    intro entry member item inItems
    exact List.mem_flatMap.mpr ⟨entry, member, List.mem_map_of_mem inItems⟩
  have every {P : List Char → Prop} (all : f.AllPatterns P) : ∀ p ∈ patterns, P p := by
    intro p member
    obtain ⟨entry, inEntries, inPatterns⟩ := List.mem_flatMap.mp member
    obtain ⟨item, inItems, rfl⟩ := List.mem_map.mp inPatterns
    exact all entry inEntries item inItems
  have listedTokens := allPatterns_iff.mp (allPatterns_load read q g f.save)
  rw [same] at listedTokens
  have loaded : f.AllPatterns fun p => p = [] ∨ .characters p ∈ read f.save :=
    allPatterns_iff.mpr listedTokens
  have noReturn : '\r' ∉ f.save := return_not_mem_save built fun entry member item inItems inPattern =>
    visible entry member item inItems _ inPattern (.inl (by decide))
  have name : Xml.IsName "seqfilters".toList := ⟨by decide, by decide⟩
  have systemId : Xml.IsValue "seqfilters.dtd".toList := by decide
  have stands : ∀ p ∈ patterns, p = [] ∨ Xml.StandsIn f.save p := by
    apply every
    intro entry member item inItems
    refine (loaded entry member item inItems).imp_right fun token => ?_
    rw [save_eq] at token noReturn ⊢
    exact conforms.text name systemId
      (fun inBody => noReturn (List.mem_append_right _ inBody)) token
  have plain := plain_of_standsIn (marked_save built listed) (every visible) stands
  exact fun entry member item inItems => plain _ (listed entry member item inItems)

/-- Rules that are plain, and match alike under the case of the loading object, come back. -/
theorem roundTrips_of_plain (conforms : Xml.Conforms read) (built : f.Built) (plain : f.Plain)
    (types : g.types = f.types) (alike : f.MatchesAlike q g.caseSensitive)
    : RoundTrips read q f g := by
  have loaded := load_save (q := q) conforms built plain types
  constructor
  · rw [loaded]
    exact rules_mapValues f g.caseSensitive
  · intro filterString level
    rw [loaded]
    exact alike filterString level

theorem roundTrips_iff_of_built (conforms : Xml.Conforms read) (built : f.Built)
    (visible : f.AllPatterns fun p => ∀ c ∈ p, ¬ IsControl c) (types : g.types = f.types)
    : RoundTrips read q f g ↔ f.Plain ∧ f.MatchesAlike q g.caseSensitive := by
  constructor
  · intro roundTrips
    have plain := plain_of_rules conforms built visible roundTrips.rules
    refine ⟨plain, fun filterString level => ?_⟩
    have mask := roundTrips.filterMask filterString level
    rw [load_save conforms built plain types] at mask
    exact mask
  · intro holds
    exact roundTrips_of_plain conforms built holds.1 types holds.2

/-- Under one case it goes without saying that the rules match alike. -/
theorem Built.matchesAlike (built : f.Built) : f.MatchesAlike q f.caseSensitive := by
  have filters : f.filters.mapValues (·.withCase f.caseSensitive) = f.filters := by
    apply OrderedMap.ext_find?
    intro key
    rw [OrderedMap.find?_mapValues]
    cases found : f.filters.find? key with
    | none => rfl
    | some filter =>
        have own := built.filters _ (OrderedMap.mem_of_find? found)
        have items : filter.filterItems.map (·.withCase f.caseSensitive) = filter.filterItems := by
          have each : ∀ item ∈ filter.filterItems, item.withCase f.caseSensitive = id item := by
            intro item listed
            rw [own.items item listed]
            rfl
          rw [List.map_congr_left each, List.map_id]
        rw [Option.map_some, Filter.withCase, items, ← own.caseSensitive]
  intro filterString level
  rw [withCase, filters]

/-- Rules that were added to the registered types come back from their file, into any object with
these types, exactly where every pattern stands for itself in a document and the patterns
match alike under the case of that object.
-/
theorem roundTrips_iff (conforms : Xml.Conforms read) (c : Bool) (calls : List Addition)
    (visible : ∀ call ∈ calls, ∀ ch ∈ call.pattern, ¬ IsControl ch)
    (types : g.types = .registered)
    : RoundTrips read q ((new .registered c).addAll q calls) g
      ↔ ((new .registered c).addAll q calls).Plain
        ∧ ((new .registered c).addAll q calls).MatchesAlike q g.caseSensitive := by
  obtain ⟨built, same, _⟩ := addAll_built (q := q) (new_built .registered c) rfl calls
  have all := (allPatterns_new (P := fun p => ∀ ch ∈ p, ¬ IsControl ch) .registered c).addAll
    (q := q) calls visible
  exact roundTrips_iff_of_built conforms built all (types.trans same.symm)

/-- Patterns of letters, which occur where their letters do. -/
def letterPatterns : RegularExpressions where
  isValid _ := true
  occursIn caseSensitive pattern string :=
    if caseSensitive then decide (pattern <:+: string)
    else decide (pattern.map Char.toLower <:+: string.map Char.toLower)

def twoRules : List Addition :=
  [⟨0, "orc".toList, 0, 0⟩, ⟨2, "dragon".toList, 50, 60⟩]

/-- Two rules of letters come back. -/
theorem roundTrips_twoRules
    : RoundTrips Xml.readDocument letterPatterns
        ((new .registered false).addAll letterPatterns twoRules) (new .registered false) := by
  have built := addAll_built (q := letterPatterns) (new_built .registered false) rfl twoRules
  have plain : ((new .registered false).addAll letterPatterns twoRules).Plain :=
    (allPatterns_new (P := Xml.IsPlain) .registered false).addAll twoRules (by decide +kernel)
  have alike := built.1.matchesAlike (q := letterPatterns)
  rw [built.2.2] at alike
  have visible : ∀ call ∈ twoRules, ∀ ch ∈ call.pattern, ¬ IsControl ch := by
    unfold IsControl
    decide +kernel
  exact (roundTrips_iff Xml.conforms_readDocument false twoRules visible rfl).mpr ⟨plain, alike⟩

/-- A rule with an ampersand does not, and what a reader makes of it does not matter. -/
theorem not_roundTrips_ampersand
    : ¬ ∀ read, Xml.Conforms read → ∀ (q : RegularExpressions) (c : Bool)
        (calls : List Addition), (∀ call ∈ calls, ∀ ch ∈ call.pattern, ¬ IsControl ch)
          → ∀ g : Filters, g.types = .registered
            → RoundTrips read q ((new .registered c).addAll q calls) g := by
  intro always
  let calls : List Addition := [⟨0, "Bandit & Thief".toList, 0, 0⟩]
  have visible : ∀ call ∈ calls, ∀ ch ∈ call.pattern, ¬ IsControl ch := by
    unfold IsControl
    decide +kernel
  have roundTrips := always _ Xml.conforms_readDocument letterPatterns false calls visible
    (new .registered false) rfl
  have all := (allPatterns_new (P := fun p => ∀ ch ∈ p, ¬ IsControl ch) .registered false).addAll
    (q := letterPatterns) calls visible
  obtain ⟨built, _⟩ := addAll_built (q := letterPatterns) (new_built .registered false) rfl calls
  have plain := plain_of_rules Xml.conforms_readDocument built all roundTrips.rules
  have entries : ((new .registered false).addAll letterPatterns calls).filters.entries
      = [(1, ⟨false, [.init "Bandit & Thief".toList false 0 0]⟩)] := by
    decide +kernel
  have pattern : Xml.IsPlain "Bandit & Thief".toList :=
    plain (1, ⟨false, [.init "Bandit & Thief".toList false 0 0]⟩) (by rw [entries]; simp)
      (.init "Bandit & Thief".toList false 0 0) (List.mem_singleton_self _)
  exact absurd pattern (by decide)

end Filters

end Scry
