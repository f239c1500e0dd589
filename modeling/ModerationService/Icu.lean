import Mathlib.Data.List.DropRight
import ModerationService.Library.Utf8
import ModerationService.Library.Utf16
import ModerationService.StdLib

/-!
# Icu — the ICU library as the pipeline uses it

ICU is not part of the repository.  What depends on its data tables is a parameter, the structure
`Icu`; the facts its documentation states about them are the hypotheses collected in
`Icu.Transcodes`, `Icu.Classifies` and `Icu.DistributesOverSpace`.  `icu::UnicodeString` itself, a
string of UTF-16 code units, is modelled by `Library.Utf16`.

The conversions and transformations that ICU defines on whole texts (`fromUTF8`, `normalize`,
`toLower`) are given on code points: `fromUTF8` replaces ill-formed bytes by U+FFFD, so every
`UnicodeString` the pipeline builds is well-formed UTF-16.
-/

namespace ModerationService

open Library

/-- `UChar32`, a code point. -/
abbrev UChar32 := Nat

/-- `icu::UnicodeString`, a string of UTF-16 code units. -/
abbrev UnicodeString := List UInt16

/-- `UErrorCode`; positive values are failures. -/
abbrev UErrorCode := Int

/-- `U_FAILURE`. -/
def uFailure (status : UErrorCode) : Bool :=
  decide (0 < status)

structure Icu where
  /-- the code points of `UnicodeString::fromUTF8` -/
  decodeUTF8 : StdString → List Char
  uIsWhitespace : UChar32 → Bool
  uIsalnum : UChar32 → Bool
  /-- the status left by `Normalizer2::getNFCInstance` -/
  getNFCInstance : UErrorCode
  /-- `Normalizer2::normalize` of the NFC instance, with the status it leaves -/
  normalize : List Char → List Char × UErrorCode
  /-- `UnicodeString::toLower` in the process locale -/
  toLower : List Char → List Char

namespace Icu

variable (icu : Icu)

def isWhitespace (c : Char) : Bool :=
  icu.uIsWhitespace c.toNat

def isalnum (c : Char) : Bool :=
  icu.uIsalnum c.toNat

/-! ## `icu::UnicodeString` -/

def fromUTF8 (textN : StdString) : UnicodeString :=
  Utf16.encode (icu.decodeUTF8 textN)

/-- `UnicodeString::toUTF8String` into an empty string. -/
def toUTF8String (text : UnicodeString) : StdString :=
  Utf8.encode (Utf16.decode text)

/-- `UnicodeString::append(UChar32)`. -/
def append (text : UnicodeString) (character : UChar32) : UnicodeString :=
  text ++ Utf16.unitsOf character

/-- `UnicodeString::trim` drops leading and trailing whitespace. -/
def trimmed (cs : List Char) : List Char :=
  (cs.dropWhile icu.isWhitespace).rdropWhile icu.isWhitespace

def trim (text : UnicodeString) : UnicodeString :=
  Utf16.encode (icu.trimmed (Utf16.decode text))

/-! ## What the documentation states -/

/-- Decoding undoes `toUTF8String`. -/
structure Transcodes : Prop where
  decode_encode : ∀ cs, icu.decodeUTF8 (Utf8.encode cs) = cs

/-- A U+0020 byte is never part of a longer sequence, well-formed or not. -/
structure DecodesSpace : Prop where
  decode_space : ∀ as bs,
    icu.decodeUTF8 (as ++ 0x20 :: bs) = icu.decodeUTF8 as ++ ' ' :: icu.decodeUTF8 bs

/-- `u_isWhitespace` and `u_isalnum`: their values on ASCII, on the Cyrillic block and on format
characters, and that whitespace is never alphanumeric. -/
structure Classifies : Prop where
  whitespace_ascii : ∀ c : Nat, c < 0x80 → icu.uIsWhitespace c =
    decide (0x09 ≤ c ∧ c ≤ 0x0D ∨ 0x1C ≤ c ∧ c ≤ 0x20)
  alnum_ascii : ∀ c : Nat, c < 0x80 → icu.uIsalnum c =
    decide (0x30 ≤ c ∧ c ≤ 0x39 ∨ 0x41 ≤ c ∧ c ≤ 0x5A ∨ 0x61 ≤ c ∧ c ≤ 0x7A)
  whitespace_cyrillic : ∀ c : Nat, 0x400 ≤ c → c ≤ 0x4FF → icu.uIsWhitespace c = false
  whitespace_format : ∀ c : Nat, (c = 0xAD ∨ c = 0x34F ∨ c = 0x61C ∨ c = 0x180E ∨
    0x200B ≤ c ∧ c ≤ 0x200F ∨ 0x202A ≤ c ∧ c ≤ 0x202E ∨ 0x2060 ≤ c ∧ c ≤ 0x2064 ∨ c = 0xFEFF) →
    icu.uIsWhitespace c = false
  alnum_cyrillic : ∀ c : Nat, 0x430 ≤ c → c ≤ 0x44F → icu.uIsalnum c = true
  alnum_whitespace : ∀ c : Nat, icu.uIsWhitespace c = true → icu.uIsalnum c = false

/-- The NFC normalizer is available and succeeds on every text. -/
structure Normalizes : Prop where
  instance_ok : uFailure icu.getNFCInstance = false
  normalize_ok : ∀ cs, uFailure (icu.normalize cs).2 = false

/-- NFC and `toLower` work on either side of U+0020 alone. -/
structure DistributesOverSpace : Prop where
  normalize_space : ∀ cs ds,
    (icu.normalize (cs ++ ' ' :: ds)).1 = (icu.normalize cs).1 ++ ' ' :: (icu.normalize ds).1
  toLower_space : ∀ cs ds,
    icu.toLower (cs ++ ' ' :: ds) = icu.toLower cs ++ ' ' :: icu.toLower ds

section Facts

variable {icu}

theorem Classifies.whitespace_space (h : icu.Classifies) : icu.isWhitespace ' ' = true := by
  have h20 := h.whitespace_ascii 0x20 (by decide)
  simpa [isWhitespace] using h20

theorem Classifies.alnum_null (h : icu.Classifies) : icu.isalnum (Char.ofNat 0) = false := by
  have h0 := h.alnum_ascii 0 (by decide)
  simpa [isalnum] using h0

end Facts

/-! ## Round trips of the hand-over between two stages -/

theorem decode_fromUTF8 (textN : StdString) :
    Utf16.decode (icu.fromUTF8 textN) = icu.decodeUTF8 textN :=
  Utf16.decode_encode _

theorem toUTF8String_encode (cs : List Char) :
    toUTF8String (Utf16.encode cs) = Utf8.encode cs := by
  simp [toUTF8String, Utf16.decode_encode]

theorem append_char (text : UnicodeString) (c : Char) :
    append text c.toNat = text ++ Utf16.encodeChar c := rfl

theorem length_append (text : UnicodeString) (c : Char) :
    (append text c.toNat).length = text.length + Utf16.width c := by
  simp [append_char, Utf16.width]

theorem append_encode (cs : List Char) (c : Char) :
    append (Utf16.encode cs) c.toNat = Utf16.encode (cs ++ [c]) := by
  simp [append_char]

theorem trim_encode (cs : List Char) :
    icu.trim (Utf16.encode cs) = Utf16.encode (icu.trimmed cs) := by
  simp [trim, Utf16.decode_encode]

end Icu

end ModerationService
