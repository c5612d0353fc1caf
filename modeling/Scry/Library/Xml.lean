import Mathlib.Data.List.Infix
import Mathlib.Data.List.TakeWhile

/-! Documents of XML 1.0 and the tokens that a reader reports of them.
A reader is a function from documents to tokens. `Conforms` says of one what the language
promises: a well-formed document is read as its tokens, and what is reported as text stands in
the document. The documents are those whose prolog names an external declaration only, so that
no entity beyond the predefined ones is declared.
-/

namespace Xml

/-- Text is walked, although the characters could be enumerated. -/
scoped instance (priority := 1100) decidableBAll (text : List Char) (P : Char → Prop)
    [DecidablePred P] : Decidable (∀ c ∈ text, P c) :=
  List.decidableBAll P text

/-- What a reader reports, in order. -/
inductive Token where
  | startDocument
  | endDocument
  | dtd
  | startElement (name : List Char) (attributes : List (List Char × List Char))
  | endElement (name : List Char)
  | characters (text : List Char)
  | comment (text : List Char)
  | entityReference (name : List Char)
  | processingInstruction
  | invalid
deriving DecidableEq, Repr

/-- The quotation mark. -/
def quote : Char := '\x22'

/-- A character of a document. -/
def IsChar (c : Char) : Prop :=
  c = '\t' ∨ c = '\n' ∨ c = '\r' ∨ (32 ≤ c.toNat ∧ c.toNat ≠ 0xfffe ∧ c.toNat ≠ 0xffff)

instance : DecidablePred IsChar := fun _ => inferInstanceAs (Decidable (_ ∨ _))

/-- What ends a section of raw text, and must not stand in any other text. -/
def cdataEnd : List Char := "]]>".toList

/-- Text that stands for itself. -/
structure IsPlain (text : List Char) : Prop where
  chars : ∀ c ∈ text, IsChar c ∧ c ≠ '<' ∧ c ≠ '&' ∧ c ≠ '\r'
  noEnd : ¬ cdataEnd <:+: text

theorem isPlain_iff {text : List Char}
    : IsPlain text
      ↔ (∀ c ∈ text, IsChar c ∧ c ≠ '<' ∧ c ≠ '&' ∧ c ≠ '\r') ∧ ¬ cdataEnd <:+: text :=
  ⟨fun plain => ⟨plain.chars, plain.noEnd⟩, fun holds => ⟨holds.1, holds.2⟩⟩

theorem isPlain_nil : IsPlain [] := ⟨nofun, by decide⟩

instance : DecidablePred IsPlain := fun _ => decidable_of_iff _ isPlain_iff.symm

/-- The names used here. -/
def IsName (name : List Char) : Prop := name ≠ [] ∧ ∀ c ∈ name, c.isAlpha = true

/-- An attribute value that stands for itself. -/
def IsValue (value : List Char) : Prop :=
  ∀ c ∈ value, IsChar c ∧ 32 ≤ c.toNat ∧ c ∉ ['<', '>', '&', quote]

instance : DecidablePred IsValue := fun value =>
  inferInstanceAs
    (Decidable (∀ c ∈ value, IsChar c ∧ 32 ≤ c.toNat ∧ c ∉ ['<', '>', '&', quote]))

theorem isValue_of_isAlpha {name : List Char} (letters : ∀ c ∈ name, c.isAlpha = true)
    : IsValue name := by
  intro c member
  have letter := letters c member
  change (decide ('A'.val ≤ c.val ∧ c.val ≤ 'Z'.val)
    || (decide ('a'.val ≤ c.val) && decide (c.val ≤ 'z'.val))) = true at letter
  simp only [Bool.or_eq_true, Bool.and_eq_true, decide_eq_true_eq, UInt32.le_iff_toNat_le]
    at letter
  change (65 ≤ c.toNat ∧ c.toNat ≤ 90) ∨ (97 ≤ c.toNat ∧ c.toNat ≤ 122) at letter
  have bounds : 65 ≤ c.toNat ∧ c.toNat ≤ 122 := by omega
  refine ⟨.inr (.inr (.inr ⟨by omega, by omega, by omega⟩)), by omega, ?_⟩
  intro listed
  simp only [List.mem_cons, List.not_mem_nil, or_false] at listed
  rcases listed with rfl | rfl | rfl | rfl <;> exact absurd bounds (by decide)

/-- The attributes that a tag can have; one that declares a namespace is not reported. -/
structure AreAttributes (attributes : List (List Char × List Char)) : Prop where
  names : ∀ a ∈ attributes, IsName a.1 ∧ a.1 ≠ "xmlns".toList
  values : ∀ a ∈ attributes, IsValue a.2
  distinct : (attributes.map Prod.fst).Nodup

def attributeText (a : List Char × List Char) : List Char :=
  ' ' :: (a.1 ++ ('=' :: quote :: (a.2 ++ [quote])))

/-- A tag without what closes it. -/
def tag (name : List Char) (attributes : List (List Char × List Char)) : List Char :=
  name ++ attributes.flatMap attributeText

def emptyElement (name : List Char) (attributes : List (List Char × List Char)) : List Char :=
  '<' :: (tag name attributes ++ ['/', '>'])

def element (name : List Char) (attributes : List (List Char × List Char)) (body : List Char)
    : List Char :=
  '<' :: (tag name attributes ++ ('>' :: (body ++ ('<' :: '/' :: (name ++ ['>'])))))

/-- What can stand between the tags of an element, with its tokens. Text ends at a tag. -/
inductive Content : List Char → List Token → Prop
  | nil : Content [] []
  | text {s rest tokens} : IsPlain s → s ≠ [] → (rest = [] ∨ rest.head? = some '<')
      → Content rest tokens → Content (s ++ rest) (.characters s :: tokens)
  | empty {name attributes rest tokens} : IsName name → AreAttributes attributes
      → Content rest tokens
      → Content (emptyElement name attributes ++ rest)
          (.startElement name attributes :: .endElement name :: tokens)
  | element {name attributes body inner rest tokens} : IsName name → AreAttributes attributes
      → Content body inner → Content rest tokens
      → Content (element name attributes body ++ rest)
          (.startElement name attributes :: (inner ++ .endElement name :: tokens))

/-- An element is content wherever other content can follow. -/
structure IsElement (s : List Char) (ts : List Token) : Prop where
  opens : s.head? = some '<'
  content {rest tokens} : Content rest tokens → Content (s ++ rest) (ts ++ tokens)

theorem isElement_empty {name : List Char} {attributes : List (List Char × List Char)}
    (isName : IsName name) (are : AreAttributes attributes)
    : IsElement (emptyElement name attributes)
        [.startElement name attributes, .endElement name] where
  opens := rfl
  content after := .empty isName are after

theorem isElement_element {name : List Char} {attributes : List (List Char × List Char)}
    {body : List Char} {inner : List Token} (isName : IsName name)
    (are : AreAttributes attributes) (content : Content body inner)
    : IsElement (element name attributes body)
        (.startElement name attributes :: (inner ++ [.endElement name])) where
  opens := rfl
  content {rest tokens} after := by
    have whole := Content.element isName are content after
    rwa [List.cons_append, List.append_assoc, List.singleton_append]

theorem IsPlain.content {s : List Char} (plain : IsPlain s) (some : s ≠ [])
    : Content s [.characters s] := by
  have content := Content.text plain some (.inl rfl) .nil
  rwa [List.append_nil] at content

theorem IsElement.alone {s : List Char} {ts : List Token} (element : IsElement s ts)
    : Content s ts := by
  have content := element.content .nil
  rwa [List.append_nil, List.append_nil] at content

/-- Elements with text in front of each and text behind the last, by induction on them. -/
theorem content_flatMap {α : Type} {text : α → List Char} {ts : α → List Token}
    {between last : List Char} {items : List α} (plain : IsPlain between) (some : between ≠ [])
    (plainLast : IsPlain last) (someLast : last ≠ [])
    (elements : ∀ a ∈ items, IsElement (text a) (ts a))
    : Content (items.flatMap (fun a => between ++ text a) ++ last)
        (items.flatMap (fun a => .characters between :: ts a) ++ [.characters last]) := by
  induction items with
  | nil =>
      exact plainLast.content someLast
  | cons a items ih =>
      obtain ⟨opens, onward⟩ := elements a List.mem_cons_self
      have more := onward (ih fun b member => elements b (List.mem_cons_of_mem a member))
      obtain ⟨rest, begins⟩ := List.head?_eq_some_iff.mp opens
      have starts (tail : List Char) : (text a ++ tail).head? = Option.some '<' := by
        rw [begins, List.cons_append, List.head?_cons]
      have content := Content.text plain some (.inr (starts _)) more
      simpa [List.flatMap_cons] using content

/-- The declaration that a document begins with. -/
def xmlDecl : List Char := "<?xml version=\"1.0\" encoding=\"UTF-8\"?>".toList

/-- The declaration of a root element whose own declarations are elsewhere. -/
def doctype (root systemId : List Char) : List Char :=
  "<!DOCTYPE ".toList ++ (root ++ (" SYSTEM \"".toList ++ (systemId ++ "\">".toList)))

/-- The first two lines of a document. -/
def prolog (root systemId : List Char) : List Char :=
  xmlDecl ++ ('\n' :: (doctype root systemId ++ ['\n']))

/-- The text that stands for another, by references of which each stands for one character. -/
inductive StandsFor : List Char → List Char → Prop
  | nil : StandsFor [] []
  | char {c : Char} {source text} : IsChar c → c ≠ '<' → c ≠ '&' → StandsFor source text
      → StandsFor (c :: source) (c :: text)
  | reference {name : List Char} {c : Char} {source text} : name ≠ [] → '<' ∉ name → IsChar c
      → StandsFor source text
      → StandsFor ('&' :: (name ++ (';' :: source))) (c :: text)

/-- No tag begins in what stands for a text, and it is no shorter than the text, by induction on
the references.
-/
theorem StandsFor.bounds {source text : List Char} (stands : StandsFor source text)
    : '<' ∉ source ∧ text.length ≤ source.length
      ∧ ('&' ∈ source → text.length < source.length) := by
  induction stands with
  | nil => exact ⟨List.not_mem_nil, Nat.le_refl 0, nofun⟩
  | @char c source text isChar opens ampersand _ ih =>
      obtain ⟨free, short, shorter⟩ := ih
      refine ⟨?_, Nat.succ_le_succ short, ?_⟩
      · rw [List.mem_cons, not_or]
        exact ⟨Ne.symm opens, free⟩
      · intro member
        rcases List.mem_cons.mp member with same | later
        · exact absurd same.symm ampersand
        · exact Nat.succ_lt_succ (shorter later)
  | @reference name c source text named free isChar _ ih =>
      obtain ⟨freeSource, short, shorter⟩ := ih
      have some := List.length_pos_iff.mpr named
      have longer : (c :: text).length < ('&' :: (name ++ ';' :: source)).length := by
        simp only [List.length_cons, List.length_append]
        omega
      refine ⟨?_, Nat.le_of_lt longer, fun _ => longer⟩
      simp only [List.mem_cons, List.mem_append, not_or]
      exact ⟨by decide, free, by decide, freeSource⟩

/-- Without a reference a text stands for itself. -/
theorem StandsFor.eq_of_free {source text : List Char} (stands : StandsFor source text)
    (free : '&' ∉ source)
    : source = text ∧ ∀ c ∈ text, IsChar c ∧ c ≠ '<' ∧ c ≠ '&' := by
  induction stands with
  | nil => exact ⟨rfl, nofun⟩
  | @char c source text isChar opens ampersand _ ih =>
      obtain ⟨same, chars⟩ := ih fun member => free (List.mem_cons_of_mem c member)
      refine ⟨congrArg (c :: ·) same, ?_⟩
      intro d member
      rcases List.mem_cons.mp member with rfl | later
      · exact ⟨isChar, opens, ampersand⟩
      · exact chars d later
  | reference => exact absurd List.mem_cons_self free

/-- Where a text can begin: at a reference, or after some markup. -/
def Begins (before source : List Char) : Prop :=
  source.head? = some '&' ∨ before.getLast? = some '>' ∨ before.getLast? = some ';'

/-- A text stands in a document, in a section of raw text or between the markup. -/
def StandsIn (doc text : List Char) : Prop :=
  ∃ before source after, doc = before ++ (source ++ after)
    ∧ ((∀ c ∈ text, IsChar c) ∧ source = "<![CDATA[".toList ++ (text ++ cdataEnd)
        ∧ ¬ cdataEnd <:+: text
      ∨ StandsFor source text ∧ ¬ cdataEnd <:+: source ∧ Begins before source)

/-- What every reader of the language does. -/
structure Conforms (read : List Char → List Token) : Prop where
  wellFormed {root systemId name : List Char}
      {attributes : List (List Char × List Char)} {body : List Char} {inner : List Token}
    : IsName root → IsValue systemId → IsName name → AreAttributes attributes
      → Content body inner
      → read (prolog root systemId ++ (element name attributes body ++ ['\n']))
          = .startDocument :: .dtd :: .startElement name attributes
              :: (inner ++ [.endElement name, .endDocument])
  text {root systemId body text : List Char}
    : IsName root → IsValue systemId → '\r' ∉ body
      → .characters text ∈ read (prolog root systemId ++ body)
      → StandsIn (prolog root systemId ++ body) text

-----------------------------------------------------------------------------------------
-- A reader of documents without references
-----------------------------------------------------------------------------------------

/-- The attributes of a tag. -/
def readAttributes : Nat → List Char → List (List Char × List Char)
  | fuel + 1, ' ' :: rest =>
      let value := (rest.dropWhile (· ≠ '=')).drop 2
      (rest.takeWhile (· ≠ '='), value.takeWhile (· ≠ quote))
        :: readAttributes fuel ((value.dropWhile (· ≠ quote)).drop 1)
  | _, _ => []

/-- The name and the attributes of a tag. -/
def readTag (source : List Char) : List Char × List (List Char × List Char) :=
  (source.takeWhile (· ≠ ' '), readAttributes source.length (source.dropWhile (· ≠ ' ')))

/-- The tokens of what stands between two angle brackets. -/
def markup (source : List Char) : List Token :=
  if source.head? = some '/' then [.endElement source.tail]
  else if source.getLast? = some '/' then
    let (name, attributes) := readTag source.dropLast
    [.startElement name attributes, .endElement name]
  else
    let (name, attributes) := readTag source
    [.startElement name attributes]

/-- The token of a text. -/
def textTokens (text : List Char) : List Token :=
  if text = [] then [] else if IsPlain text then [.characters text] else [.invalid]

/-- The tokens of a text, or of a tag, of which some is read. -/
def scan : Bool → List Char → List Char → List Token
  | false, text, [] => if text.all Char.isWhitespace then [.endDocument] else [.invalid]
  | true, _, [] => [.invalid]
  | false, text, c :: rest =>
      if c = '<' then textTokens text ++ scan true [] rest
      else scan false (text ++ [c]) rest
  | true, source, c :: rest =>
      if c = '>' then markup source ++ scan false [] rest
      else scan true (source ++ [c]) rest

/-- What follows the first line. -/
def skipLine (doc : List Char) : List Char := (doc.dropWhile (· ≠ '\n')).drop 1

/-- The tokens of a document behind a prolog of two lines. -/
def readDocument (doc : List Char) : List Token :=
  match skipLine (skipLine doc) with
  | '<' :: rest => .startDocument :: .dtd :: scan true [] rest
  | _ => [.startDocument, .dtd, .invalid]

-----------------------------------------------------------------------------------------
-- The reader conforms
-----------------------------------------------------------------------------------------

theorem takeWhile_ne {c : Char} {s : List Char} (free : c ∉ s) (rest : List Char)
    : (s ++ c :: rest).takeWhile (· ≠ c) = s := by
  have before : ∀ d ∈ s, decide (d ≠ c) = true := fun d member =>
    decide_eq_true fun same => free (same ▸ member)
  rw [List.takeWhile_append_of_pos before, List.takeWhile_cons_of_neg (by simp),
    List.append_nil]

theorem dropWhile_ne {c : Char} {s : List Char} (free : c ∉ s) (rest : List Char)
    : (s ++ c :: rest).dropWhile (· ≠ c) = c :: rest := by
  have before : ∀ d ∈ s, decide (d ≠ c) = true := fun d member =>
    decide_eq_true fun same => free (same ▸ member)
  rw [List.dropWhile_append_of_pos before, List.dropWhile_cons_of_neg (by simp)]

theorem IsName.free {name : List Char} (isName : IsName name) {c : Char}
    (other : c.isAlpha = false)
    : c ∉ name := by
  intro member
  rw [isName.2 c member] at other
  exact nomatch other

theorem IsValue.free {value : List Char} (isValue : IsValue value) {c : Char}
    (markup : c ∈ ['<', '>', '&', quote])
    : c ∉ value :=
  fun member => (isValue c member).2.2 markup

theorem AreAttributes.of_cons {a : List Char × List Char}
    {attributes : List (List Char × List Char)} (are : AreAttributes (a :: attributes))
    : (IsName a.1 ∧ IsValue a.2) ∧ AreAttributes attributes := by
  constructor
  · exact ⟨(are.names a List.mem_cons_self).1, are.values a List.mem_cons_self⟩
  · constructor
    · exact fun b member => are.names b (List.mem_cons_of_mem a member)
    · exact fun b member => are.values b (List.mem_cons_of_mem a member)
    · exact (List.nodup_cons.mp are.distinct).2

/-- The attributes of a tag are read, by induction on them. -/
theorem readAttributes_flatMap {attributes : List (List Char × List Char)}
    (are : AreAttributes attributes) {fuel : Nat} (enough : attributes.length ≤ fuel)
    : readAttributes fuel (attributes.flatMap attributeText) = attributes := by
  induction attributes generalizing fuel with
  | nil =>
      cases fuel with
      | zero => rfl
      | succ fuel => rfl
  | cons a attributes ih =>
      obtain ⟨⟨isName, isValue⟩, more⟩ := are.of_cons
      cases fuel with
      | zero => exact absurd enough (Nat.not_succ_le_zero _)
      | succ fuel =>
          have equals : '=' ∉ a.1 := isName.free (by decide)
          have quotes : quote ∉ a.2 := isValue.free (by decide)
          rw [List.flatMap_cons, attributeText, List.cons_append, readAttributes]
          simp only [List.append_assoc, List.cons_append, List.nil_append, takeWhile_ne equals,
            dropWhile_ne equals, List.drop_succ_cons, List.drop_zero, takeWhile_ne quotes,
            dropWhile_ne quotes, ih more (Nat.le_of_succ_le_succ enough)]

theorem length_attributes_le (attributes : List (List Char × List Char))
    : attributes.length ≤ (attributes.flatMap attributeText).length := by
  induction attributes with
  | nil => exact Nat.le_refl 0
  | cons a attributes ih =>
      rw [List.flatMap_cons, List.length_append, attributeText, List.length_cons,
        List.length_cons]
      omega

theorem readTag_tag {name : List Char} {attributes : List (List Char × List Char)}
    (isName : IsName name) (are : AreAttributes attributes)
    : readTag (tag name attributes) = (name, attributes) := by
  have free : ' ' ∉ name := isName.free (by decide)
  have enough : attributes.length ≤ (tag name attributes).length := by
    rw [tag, List.length_append]
    exact Nat.le_trans (length_attributes_le attributes) (Nat.le_add_left _ _)
  have read := readAttributes_flatMap are enough
  rw [tag] at read ⊢
  rw [readTag]
  cases attributes with
  | nil =>
      have all : ∀ c ∈ name, decide (c ≠ ' ') = true := fun c member =>
        decide_eq_true fun same => free (same ▸ member)
      rw [List.flatMap_nil, List.append_nil, List.takeWhile_eq_self_iff.mpr all,
        List.dropWhile_eq_nil_iff.mpr all]
      cases name with
      | nil => rfl
      | cons c name => rfl
  | cons a attributes =>
      rw [List.flatMap_cons, attributeText, List.cons_append] at read ⊢
      rw [takeWhile_ne free, dropWhile_ne free, read]

/-- The characters of a tag are those of its names and values, and what separates them. -/
theorem mem_tag_iff {name : List Char} {attributes : List (List Char × List Char)} {c : Char}
    : c ∈ tag name attributes
      ↔ c ∈ name ∨ ∃ a ∈ attributes, c ∈ [' ', '=', quote] ∨ c ∈ a.1 ∨ c ∈ a.2 := by
  simp only [tag, attributeText, List.mem_append, List.mem_flatMap, List.mem_cons,
    List.not_mem_nil, or_false]
  refine or_congr_right (exists_congr fun a => and_congr_right fun _ => ?_)
  grind

theorem mem_tag {name : List Char} {attributes : List (List Char × List Char)}
    (isName : IsName name) (are : AreAttributes attributes) {c : Char}
    (member : c ∈ tag name attributes)
    : c ≠ '<' ∧ c ≠ '>' := by
  have alpha {name : List Char} (isName : IsName name) (member : c ∈ name)
      : c ≠ '<' ∧ c ≠ '>' :=
    ⟨fun same => isName.free (by decide) (same ▸ member),
      fun same => isName.free (by decide) (same ▸ member)⟩
  rcases mem_tag_iff.mp member with inName | ⟨a, listed, separator | inKey | inValue⟩
  · exact alpha isName inName
  · exact ⟨fun same => absurd (same ▸ separator) (by decide),
      fun same => absurd (same ▸ separator) (by decide)⟩
  · exact alpha (are.names a listed).1 inKey
  · exact ⟨fun same => (are.values a listed).free (by decide) (same ▸ inValue),
      fun same => (are.values a listed).free (by decide) (same ▸ inValue)⟩

theorem IsName.head?_ne {name : List Char} (isName : IsName name) {c : Char}
    (other : c.isAlpha = false) (rest : List Char)
    : (name ++ rest).head? ≠ some c := by
  obtain ⟨first, more, rfl⟩ := List.exists_cons_of_ne_nil isName.1
  intro same
  exact isName.free other (Option.some.inj same ▸ List.mem_cons_self)

theorem getLast?_tag_ne {name : List Char} {attributes : List (List Char × List Char)}
    (isName : IsName name)
    : (tag name attributes).getLast? ≠ some '/' := by
  rcases List.eq_nil_or_concat attributes with rfl | ⟨attributes, a, rfl⟩
  · rw [tag, List.flatMap_nil, List.append_nil]
    intro last
    exact isName.free (by decide) (List.mem_of_getLast? last)
  · have ends : tag name (attributes ++ [a])
        = (name ++ attributes.flatMap attributeText ++ (' ' :: (a.1 ++ ('=' :: quote :: a.2))))
          ++ [quote] := by
      simp [tag, attributeText]
    rw [List.concat_eq_append, ends, List.getLast?_concat]
    decide

theorem markup_tag {name : List Char} {attributes : List (List Char × List Char)}
    (isName : IsName name) (are : AreAttributes attributes)
    : markup (tag name attributes) = [.startElement name attributes] := by
  have first : (tag name attributes).head? ≠ some '/' := isName.head?_ne (by decide) _
  rw [markup, if_neg first, if_neg (getLast?_tag_ne isName), readTag_tag isName are]

theorem markup_empty {name : List Char} {attributes : List (List Char × List Char)}
    (isName : IsName name) (are : AreAttributes attributes)
    : markup (tag name attributes ++ ['/'])
      = [.startElement name attributes, .endElement name] := by
  have first : (tag name attributes ++ ['/']).head? ≠ some '/' := by
    rw [tag, List.append_assoc]
    exact isName.head?_ne (by decide) _
  rw [markup, if_neg first, List.getLast?_concat, if_pos rfl, List.dropLast_concat,
    readTag_tag isName are]

theorem markup_end (name : List Char) : markup ('/' :: name) = [.endElement name] := by
  rw [markup, List.head?_cons, if_pos rfl, List.tail_cons]

/-- A tag is read to its closing bracket, by induction on what is left of it. -/
theorem scan_tag {source more : List Char} (free : '>' ∉ more) (rest : List Char)
    : scan true source (more ++ '>' :: rest) = markup (source ++ more) ++ scan false [] rest := by
  induction more generalizing source with
  | nil => rw [List.nil_append, scan, if_pos rfl, List.append_nil]
  | cons c more ih =>
      obtain ⟨other, later⟩ := not_or.mp (List.mem_cons.not.mp free)
      rw [List.cons_append, scan, if_neg (Ne.symm other), ih later, List.append_assoc,
        List.singleton_append]

/-- A text is read to the next tag, by induction on what is left of it. -/
theorem scan_text {text more : List Char} (free : '<' ∉ more) (rest : List Char)
    : scan false text (more ++ '<' :: rest)
      = textTokens (text ++ more) ++ scan true [] rest := by
  induction more generalizing text with
  | nil => rw [List.nil_append, scan, if_pos rfl, List.append_nil]
  | cons c more ih =>
      obtain ⟨other, later⟩ := not_or.mp (List.mem_cons.not.mp free)
      rw [List.cons_append, scan, if_neg (Ne.symm other), ih later, List.append_assoc,
        List.singleton_append]

/-- Content in front of a tag is read, by induction on it. -/
theorem scan_content {body : List Char} {tokens : List Token} (content : Content body tokens)
    (rest : List Char)
    : scan false [] (body ++ '<' :: rest) = tokens ++ scan false [] ('<' :: rest) := by
  induction content generalizing rest with
  | nil => rfl
  | @text s after tokens plain some begins _ ih =>
      have free : '<' ∉ s := fun member => (plain.chars _ member).2.1 rfl
      have token : textTokens ([] ++ s) = [.characters s] := by
        rw [List.nil_append, textTokens, if_neg some, if_pos plain]
      have read (rest : List Char)
          : scan false [] (s ++ '<' :: rest)
            = .characters s :: scan false [] ('<' :: rest) := by
        rw [scan_text free, token]
        rfl
      rcases begins with rfl | begins
      · rw [List.append_nil, read, List.cons_append, ← ih, List.nil_append]
      · obtain ⟨more, rfl⟩ := List.head?_eq_some_iff.mp begins
        rw [List.append_assoc, List.cons_append, read, List.cons_append, ← ih,
          List.cons_append]
  | @empty name attributes after tokens isName are _ ih =>
      have free : '>' ∉ tag name attributes ++ ['/'] := by
        intro member
        rcases List.mem_append.mp member with inTag | slash
        · exact (mem_tag isName are inTag).2 rfl
        · exact absurd slash (by decide)
      have shape : emptyElement name attributes ++ after ++ '<' :: rest
          = [] ++ '<' :: ((tag name attributes ++ ['/']) ++ '>' :: (after ++ '<' :: rest)) := by
        simp [emptyElement]
      rw [shape, scan_text List.not_mem_nil, scan_tag free, List.nil_append, List.nil_append,
        markup_empty isName are, ih]
      rfl
  | @element name attributes body inner after tokens isName are _ _ inside ih =>
      have opening : '>' ∉ tag name attributes := fun member => (mem_tag isName are member).2 rfl
      have closing : '>' ∉ '/' :: name := by
        intro member
        rcases List.mem_cons.mp member with slash | inName
        · exact absurd slash (by decide)
        · exact isName.free (by decide) inName
      have shape : element name attributes body ++ after ++ '<' :: rest
          = [] ++ '<' :: (tag name attributes
              ++ '>' :: (body ++ '<' :: (('/' :: name) ++ '>' :: (after ++ '<' :: rest)))) := by
        simp [element]
      have shut (rest : List Char)
          : scan false [] ('<' :: (('/' :: name) ++ '>' :: rest))
            = .endElement name :: scan false [] rest := by
        rw [← List.nil_append ('<' :: _), scan_text List.not_mem_nil, scan_tag closing,
          List.nil_append, List.nil_append, markup_end]
        rfl
      rw [shape, scan_text List.not_mem_nil, scan_tag opening, List.nil_append, List.nil_append,
        markup_tag isName are, inside, shut, ih]
      simp [textTokens]

theorem IsPlain.standsFor {text : List Char} (chars : ∀ c ∈ text, IsChar c ∧ c ≠ '<' ∧ c ≠ '&')
    : StandsFor text text := by
  induction text with
  | nil => exact .nil
  | cons c text ih =>
      obtain ⟨isChar, open_, ampersand⟩ := chars c List.mem_cons_self
      exact .char isChar open_ ampersand (ih fun d member => chars d (List.mem_cons_of_mem c member))

theorem characters_textTokens {text read : List Char}
    (member : .characters text ∈ textTokens read)
    : text = read ∧ IsPlain read := by
  rw [textTokens] at member
  split_ifs at member with none plain
  · exact absurd member List.not_mem_nil
  · cases List.mem_singleton.mp member
    exact ⟨rfl, plain⟩
  · exact nomatch List.mem_singleton.mp member

theorem characters_markup {text source : List Char} : .characters text ∉ markup source := by
  rw [markup]
  intro member
  split_ifs at member
  · exact nomatch List.mem_singleton.mp member
  · simp at member
  · simp at member

/-- Every text read stands in the document, by induction on what is not read yet. -/
theorem scan_standsIn {doc text : List Char} (inTag : Bool) (before read : List Char) {rest : List Char}
    (whole : doc = before ++ (read ++ rest))
    (behind : inTag = false → before.getLast? = some '>')
    (member : .characters text ∈ scan inTag read rest)
    : StandsIn doc text := by
  induction rest generalizing inTag before read with
  | nil =>
      cases inTag with
      | false =>
          rw [scan] at member
          split_ifs at member
          · exact nomatch List.mem_singleton.mp member
          · exact nomatch List.mem_singleton.mp member
      | true => exact nomatch List.mem_singleton.mp member
  | cons c rest ih =>
      have onward : doc = before ++ ((read ++ [c]) ++ rest) := by
        rw [whole, List.append_assoc, List.singleton_append]
      cases inTag with
      | false =>
          rw [scan] at member
          split_ifs at member with opens
          · rcases List.mem_append.mp member with here | later
            · obtain ⟨rfl, plain⟩ := characters_textTokens here
              refine ⟨before, text, c :: rest, whole, .inr ⟨?_, plain.noEnd, ?_⟩⟩
              · exact IsPlain.standsFor fun d inText =>
                  ⟨(plain.chars d inText).1, (plain.chars d inText).2.1,
                    (plain.chars d inText).2.2.1⟩
              · exact .inr (.inl (behind rfl))
            · apply ih true (before ++ (read ++ [c])) [] _ nofun later
              rw [onward, List.nil_append, List.append_assoc before]
          · exact ih false _ _ onward behind member
      | true =>
          rw [scan] at member
          split_ifs at member with closes
          · rcases List.mem_append.mp member with here | later
            · exact absurd here characters_markup
            · apply ih false (before ++ (read ++ [c])) [] _ _ later
              · rw [onward, List.nil_append, List.append_assoc before]
              · intro _
                rw [← List.append_assoc, List.getLast?_concat, closes]
          · exact ih true _ _ onward nofun member

theorem skipLine_append {line : List Char} (free : '\n' ∉ line) (rest : List Char)
    : skipLine (line ++ '\n' :: rest) = rest := by
  rw [skipLine, dropWhile_ne free, List.drop_succ_cons, List.drop_zero]

theorem skipLine_prolog {root systemId : List Char} (isName : IsName root)
    (isValue : IsValue systemId) (body : List Char)
    : skipLine (skipLine (prolog root systemId ++ body)) = body := by
  have first : '\n' ∉ xmlDecl := by decide
  have second : '\n' ∉ doctype root systemId := by
    intro member
    rcases List.mem_append.mp member with fixed | member
    · exact absurd fixed (by decide)
    rcases List.mem_append.mp member with inRoot | member
    · exact isName.free (by decide) inRoot
    rcases List.mem_append.mp member with fixed | member
    · exact absurd fixed (by decide)
    rcases List.mem_append.mp member with inSystem | fixed
    · exact absurd (isValue _ inSystem).2.1 (by decide)
    · exact absurd fixed (by decide)
  rw [prolog, List.append_assoc, List.cons_append, List.append_assoc, List.singleton_append,
    skipLine_append first, skipLine_append second]

/-- There is such a reader. -/
theorem conforms_readDocument : Conforms readDocument where
  wellFormed {root systemId name attributes body inner} isRoot isSystem isName are content := by
    have opening : '>' ∉ tag name attributes := fun member => (mem_tag isName are member).2 rfl
    have closing : '>' ∉ '/' :: name := by
      intro member
      rcases List.mem_cons.mp member with slash | inName
      · exact absurd slash (by decide)
      · exact isName.free (by decide) inName
    have shut : scan false [] ('<' :: (('/' :: name) ++ '>' :: ['\n']))
        = [.endElement name, .endDocument] := by
      rw [← List.nil_append ('<' :: _), scan_text List.not_mem_nil, scan_tag closing,
        List.nil_append, List.nil_append, markup_end]
      rfl
    have shape : element name attributes body ++ ['\n']
        = '<' :: (tag name attributes
            ++ '>' :: (body ++ '<' :: (('/' :: name) ++ '>' :: ['\n']))) := by
      simp [element]
    rw [readDocument, skipLine_prolog isRoot isSystem, shape]
    change .startDocument :: .dtd :: scan true [] _ = _
    rw [scan_tag opening, List.nil_append, markup_tag isName are, scan_content content, shut]
    rfl
  text {root systemId body text} isRoot isSystem _ member := by
    rw [readDocument, skipLine_prolog isRoot isSystem] at member
    split at member
    · rename_i rest _
      have later : .characters text ∈ scan true [] rest := by simpa using member
      apply scan_standsIn true (prolog root systemId ++ ['<']) [] _ nofun later
      rw [List.append_assoc, List.nil_append, List.singleton_append]
    · simp at member

end Xml
