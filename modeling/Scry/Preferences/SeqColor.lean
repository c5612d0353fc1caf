import Mathlib.Algebra.GroupWithZero.Nat
import Mathlib.Tactic.SplitIfs
import Scry.Library.TextStream

/-! Colours of the preferences: red, green and blue parts, written as hexadecimal text and read
from it or from the name of a colour.
-/

namespace Scry

open TextStream

/-- How the string class reads numbers: `toInt` and `toULongLong` find the base out from the text,
`toLongLong` is decimal, and `toUInt` is hexadecimal. Text that is no number, or one out of range,
is none.
-/
structure NumberReader where
  toInt : List Char → Option Int32
  toULongLong : List Char → Option UInt64
  toLongLong : List Char → Option Int64
  toUInt : List Char → Option UInt32

/-- A colour, which may be none. -/
structure SeqColor where
  r : UInt8 := 0
  g : UInt8 := 0
  b : UInt8 := 0
  valid : Bool := false
deriving DecidableEq

namespace SeqColor

/-- The colour of three parts. -/
def rgb (r g b : UInt8) : SeqColor := ⟨r, g, b, true⟩

/-- `%02x`. -/
def hexByte (n : UInt8) : List Char := [(n.toNat / 16).digitChar, (n.toNat % 16).digitChar]

def name (c : SeqColor) : List Char := '#' :: (hexByte c.r ++ hexByte c.g ++ hexByte c.b)

/-- `kNamedColors`. -/
def namedColors : List (String × SeqColor) :=
  [("aliceblue", .rgb 240 248 255), ("antiquewhite", .rgb 250 235 215), ("aqua", .rgb 0 255 255),
   ("aquamarine", .rgb 127 255 212), ("azure", .rgb 240 255 255), ("beige", .rgb 245 245 220),
   ("bisque", .rgb 255 228 196), ("black", .rgb 0 0 0), ("blanchedalmond", .rgb 255 235 205),
   ("blue", .rgb 0 0 255), ("blueviolet", .rgb 138 43 226), ("brown", .rgb 165 42 42),
   ("burlywood", .rgb 222 184 135), ("cadetblue", .rgb 95 158 160),
   ("chartreuse", .rgb 127 255 0), ("chocolate", .rgb 210 105 30), ("coral", .rgb 255 127 80),
   ("cornflowerblue", .rgb 100 149 237), ("cornsilk", .rgb 255 248 220),
   ("crimson", .rgb 220 20 60), ("cyan", .rgb 0 255 255), ("darkblue", .rgb 0 0 139),
   ("darkcyan", .rgb 0 139 139), ("darkgoldenrod", .rgb 184 134 11),
   ("darkgray", .rgb 169 169 169), ("darkgreen", .rgb 0 100 0), ("darkgrey", .rgb 169 169 169),
   ("darkkhaki", .rgb 189 183 107), ("darkmagenta", .rgb 139 0 139),
   ("darkolivegreen", .rgb 85 107 47), ("darkorange", .rgb 255 140 0),
   ("darkorchid", .rgb 153 50 204), ("darkred", .rgb 139 0 0), ("darksalmon", .rgb 233 150 122),
   ("darkseagreen", .rgb 143 188 143), ("darkslateblue", .rgb 72 61 139),
   ("darkslategray", .rgb 47 79 79), ("darkslategrey", .rgb 47 79 79),
   ("darkturquoise", .rgb 0 206 209), ("darkviolet", .rgb 148 0 211),
   ("deeppink", .rgb 255 20 147), ("deepskyblue", .rgb 0 191 255), ("dimgray", .rgb 105 105 105),
   ("dimgrey", .rgb 105 105 105), ("dodgerblue", .rgb 30 144 255), ("firebrick", .rgb 178 34 34),
   ("floralwhite", .rgb 255 250 240), ("forestgreen", .rgb 34 139 34),
   ("fuchsia", .rgb 255 0 255), ("gainsboro", .rgb 220 220 220),
   ("ghostwhite", .rgb 248 248 255), ("gold", .rgb 255 215 0), ("goldenrod", .rgb 218 165 32),
   ("gray", .rgb 128 128 128), ("green", .rgb 0 128 0), ("greenyellow", .rgb 173 255 47),
   ("grey", .rgb 128 128 128), ("honeydew", .rgb 240 255 240), ("hotpink", .rgb 255 105 180),
   ("indianred", .rgb 205 92 92), ("indigo", .rgb 75 0 130), ("ivory", .rgb 255 255 240),
   ("khaki", .rgb 240 230 140), ("lavender", .rgb 230 230 250),
   ("lavenderblush", .rgb 255 240 245), ("lawngreen", .rgb 124 252 0),
   ("lemonchiffon", .rgb 255 250 205), ("lightblue", .rgb 173 216 230),
   ("lightcoral", .rgb 240 128 128), ("lightcyan", .rgb 224 255 255),
   ("lightgoldenrodyellow", .rgb 250 250 210), ("lightgray", .rgb 211 211 211),
   ("lightgreen", .rgb 144 238 144), ("lightgrey", .rgb 211 211 211),
   ("lightpink", .rgb 255 182 193), ("lightsalmon", .rgb 255 160 122),
   ("lightseagreen", .rgb 32 178 170), ("lightskyblue", .rgb 135 206 250),
   ("lightslategray", .rgb 119 136 153), ("lightslategrey", .rgb 119 136 153),
   ("lightsteelblue", .rgb 176 196 222), ("lightyellow", .rgb 255 255 224),
   ("lime", .rgb 0 255 0), ("limegreen", .rgb 50 205 50), ("linen", .rgb 250 240 230),
   ("magenta", .rgb 255 0 255), ("maroon", .rgb 128 0 0), ("mediumaquamarine", .rgb 102 205 170),
   ("mediumblue", .rgb 0 0 205), ("mediumorchid", .rgb 186 85 211),
   ("mediumpurple", .rgb 147 112 219), ("mediumseagreen", .rgb 60 179 113),
   ("mediumslateblue", .rgb 123 104 238), ("mediumspringgreen", .rgb 0 250 154),
   ("mediumturquoise", .rgb 72 209 204), ("mediumvioletred", .rgb 199 21 133),
   ("midnightblue", .rgb 25 25 112), ("mintcream", .rgb 245 255 250),
   ("mistyrose", .rgb 255 228 225), ("moccasin", .rgb 255 228 181),
   ("navajowhite", .rgb 255 222 173), ("navy", .rgb 0 0 128), ("oldlace", .rgb 253 245 230),
   ("olive", .rgb 128 128 0), ("olivedrab", .rgb 107 142 35), ("orange", .rgb 255 165 0),
   ("orangered", .rgb 255 69 0), ("orchid", .rgb 218 112 214),
   ("palegoldenrod", .rgb 238 232 170), ("palegreen", .rgb 152 251 152),
   ("paleturquoise", .rgb 175 238 238), ("palevioletred", .rgb 219 112 147),
   ("papayawhip", .rgb 255 239 213), ("peachpuff", .rgb 255 218 185), ("peru", .rgb 205 133 63),
   ("pink", .rgb 255 192 203), ("plum", .rgb 221 160 221), ("powderblue", .rgb 176 224 230),
   ("purple", .rgb 128 0 128), ("red", .rgb 255 0 0), ("rosybrown", .rgb 188 143 143),
   ("royalblue", .rgb 65 105 225), ("saddlebrown", .rgb 139 69 19), ("salmon", .rgb 250 128 114),
   ("sandybrown", .rgb 244 164 96), ("seagreen", .rgb 46 139 87), ("seashell", .rgb 255 245 238),
   ("sienna", .rgb 160 82 45), ("silver", .rgb 192 192 192), ("skyblue", .rgb 135 206 235),
   ("slateblue", .rgb 106 90 205), ("slategray", .rgb 112 128 144),
   ("slategrey", .rgb 112 128 144), ("snow", .rgb 255 250 250), ("springgreen", .rgb 0 255 127),
   ("steelblue", .rgb 70 130 180), ("tan", .rgb 210 180 140), ("teal", .rgb 0 128 128),
   ("thistle", .rgb 216 191 216), ("tomato", .rgb 255 99 71), ("transparent", .rgb 0 0 0),
   ("turquoise", .rgb 64 224 208), ("violet", .rgb 238 130 238), ("wheat", .rgb 245 222 179),
   ("white", .rgb 255 255 255), ("whitesmoke", .rgb 245 245 245), ("yellow", .rgb 255 255 0),
   ("yellowgreen", .rgb 154 205 50)]

/-- Case folding, as far as a letter of ASCII comes out of it. -/
def foldCase (c : Char) : Char :=
  if c = '\u017f' then 's' else if c = '\u212a' then 'k' else c.toLower

/-- Equality with a text of ASCII that leaves the case aside. -/
def sameName (spec : List Char) (name : String) : Bool :=
  spec.map foldCase = name.toList.map foldCase

/-- The length of a text in the units of a string. -/
def size (spec : List Char) : Nat :=
  (spec.map fun c => if c.toNat < 0x10000 then 1 else 2).sum

/-- The colour a text names, and none where it names none. -/
def ofText (numbers : NumberReader) (spec : List Char) : SeqColor :=
  match spec with
  | [] => {}
  | c :: digits =>
      if c = '#' then
        if size spec ≠ 7 then {}
        else
          match numbers.toUInt digits with
          | none => {}
          | some v => rgb (v >>> 16).toUInt8 (v >>> 8).toUInt8 v.toUInt8
      else
        match namedColors.find? fun named => sameName spec named.1 with
        | none => {}
        | some named => named.2

-----------------------------------------------------------------------------------------
-- What is written is read
-----------------------------------------------------------------------------------------

/-- Six hexadecimal digits are read as the number they write. -/
def ReadsHex (numbers : NumberReader) : Prop :=
  ∀ r g b : UInt8,
    numbers.toUInt (hexByte r ++ hexByte g ++ hexByte b)
      = some (.ofNat (r.toNat * 0x10000 + g.toNat * 0x100 + b.toNat))

theorem size_name (c : SeqColor) : size c.name = 7 := by
  have narrow : ∀ d < 16, d.digitChar.toNat < 0x10000 := by decide
  have high (n : UInt8) : (n.toNat / 16).digitChar.toNat < 0x10000 := by
    apply narrow
    have := n.toNat_lt
    omega
  have low (n : UInt8) : (n.toNat % 16).digitChar.toNat < 0x10000 :=
    narrow _ (Nat.mod_lt _ (by omega))
  simp [size, name, hexByte, high, low]

/-- The text of a colour is read as that colour, which is then a valid one. -/
theorem ofText_name {numbers : NumberReader} (readsHex : ReadsHex numbers) (c : SeqColor)
    : ofText numbers c.name = { c with valid := true } := by
  have sized : ¬ size c.name ≠ 7 := not_not_intro (size_name c)
  have red := c.r.toNat_lt
  have green := c.g.toNat_lt
  have blue := c.b.toNat_lt
  have sixteen : UInt32.toNat 16 = 16 := rfl
  have eight : UInt32.toNat 8 = 8 := rfl
  rw [name] at sized ⊢
  rw [ofText, if_pos rfl, if_neg sized, readsHex]
  dsimp only [rgb]
  congr 1
  · apply UInt8.toNat.inj
    simp only [UInt32.toNat_toUInt8, UInt32.toNat_shiftRight, UInt32.toNat_ofNat',
      Nat.shiftRight_eq_div_pow, sixteen, Nat.reduceMod, Nat.reducePow]
    omega
  · apply UInt8.toNat.inj
    simp only [UInt32.toNat_toUInt8, UInt32.toNat_shiftRight, UInt32.toNat_ofNat',
      Nat.shiftRight_eq_div_pow, eight, Nat.reduceMod, Nat.reducePow]
    omega
  · apply UInt8.toNat.inj
    simp only [UInt32.toNat_toUInt8, UInt32.toNat_ofNat']
    omega

/-- Every name of a colour starts with a letter. -/
theorem namedColors_letters
    : ∀ named ∈ namedColors, ∃ c ∈ named.1.toList.head?, ('a' ≤ foldCase c) := by
  have letters : namedColors.all (fun named =>
      named.1.toList.head?.any fun c => 'a' ≤ foldCase c) = true := by
    decide +kernel
  intro named member
  obtain ⟨c, first, above⟩ := (Option.any_eq_true _ _).mp
    (List.all_eq_true.mp letters named member)
  exact ⟨c, first, of_decide_eq_true above⟩

/-- A number is no colour. -/
theorem ofText_decimalInt (numbers : NumberReader) (i : Int)
    : (ofText numbers (decimalInt i)).valid = false := by
  cases written : decimalInt i with
  | nil => rfl
  | cons c digits =>
      have first : c = '-' ∨ c.isDigit = true := mem_decimalInt (written ▸ List.mem_cons_self)
      have below : c ≠ '#' ∧ ¬ 'a' ≤ foldCase c := by
        rcases first with rfl | digit
        · decide
        · have bounds := toNat_of_isDigit digit
          have all : ∀ n < 58, 48 ≤ n → Char.ofNat n ≠ '#' ∧ ¬ 'a' ≤ foldCase (Char.ofNat n) := by
            decide
          exact Char.ofNat_toNat c ▸ all c.toNat (by omega) bounds.1
      have unnamed
          : (namedColors.find? fun named => sameName (c :: digits) named.1) = none := by
        apply List.find?_eq_none.mpr
        intro named member same
        obtain ⟨letter, head, above⟩ := namedColors_letters named member
        obtain ⟨rest, spelled⟩ := List.head?_eq_some_iff.mp head
        rw [sameName, spelled, decide_eq_true_eq, List.map_cons, List.map_cons] at same
        exact below.2 ((List.cons.inj same).1 ▸ above)
      rw [ofText, if_neg below.1, unnamed]

end SeqColor

end Scry
