import ModerationService.Icu

/-!
# Constants — code points, leetspeak tables and forbidden words

`model/unicode_constants.hpp`, `model/constants.hpp` and `model/constants.cpp`.
-/

namespace ModerationService

namespace UnicodeConstants

/-! ## Zero-width and invisible format characters -/

def zeroWidthSpace : UChar32 := 0x200B
def zeroWidthNonJoiner : UChar32 := 0x200C
def zeroWidthJoiner : UChar32 := 0x200D
def leftToRightMark : UChar32 := 0x200E
def rightToLeftMark : UChar32 := 0x200F
def zeroWidthNoBreakSpace : UChar32 := 0xFEFF
def wordJoiner : UChar32 := 0x2060
def functionApplication : UChar32 := 0x2061
def invisibleTimes : UChar32 := 0x2062
def invisibleSeparator : UChar32 := 0x2063
def invisiblePlus : UChar32 := 0x2064

/-! ## Typographic format characters -/

def softHyphen : UChar32 := 0x00AD
def combiningGraphemeJoiner : UChar32 := 0x034F
def arabicLetterMark : UChar32 := 0x061C
def mongolianVowelSeparator : UChar32 := 0x180E
def lineSeparator : UChar32 := 0x2028
def paragraphSeparator : UChar32 := 0x2029

/-! ## Ranges -/

def bidiMarkersStart : UChar32 := 0x202A
def bidiMarkersEnd : UChar32 := 0x202E

def cyrillicBlockStart : UChar32 := 0x0400
def cyrillicBlockEnd : UChar32 := 0x04FF

def latinUppercaseStart : UChar32 := 0x0041
def latinUppercaseEnd : UChar32 := 0x005A

def latinLowercaseStart : UChar32 := 0x0061
def latinLowercaseEnd : UChar32 := 0x007A

end UnicodeConstants

namespace TextProcessingConstants

/-! ## Leetspeak maps -/

/-- `std::unordered_map<UChar32, UChar32>`, as the list of its entries. -/
abbrev CharMap := List (Char × Char)

def leetMapLatin : CharMap :=
  [('0', 'o'), ('!', 'i'), ('1', 'i'), ('%', 'o'), ('3', 'e'), ('^', 'a'),
   ('4', 'a'), ('[', 'c'), ('5', 's'), ('&', 'a'), ('6', 'g'), ('$', 's'),
   ('7', 't'), ('8', 'b'), ('9', 'g'), ('@', 'a'), ('*', 'a'), ('#', 'h'),
   ('+', 't'), ('|', 'i'), ('/', 'l'), (')', 'd'), ('~', 'n'), ('(', 'c'),
   ('{', 'c'), ('<', 'c'), ('>', 'd')]

def leetMapCyrillic : CharMap :=
  [('0', 'о'), ('1', 'і'), ('3', 'з'), ('4', 'ч'), ('5', 'ѕ'), ('6', 'б'),
   ('8', 'в'), ('9', 'я'), ('@', 'а'), ('$', 'з'), ('|', 'і'), ('/', 'г')]

def homoglyphMap : CharMap :=
  [('a', 'а'), ('e', 'е'), ('o', 'о'), ('p', 'р'), ('c', 'с'), ('y', 'у'),
   ('x', 'х'), ('k', 'к'), ('b', 'в'), ('h', 'н'), ('m', 'м'), ('t', 'т')]

/-! ## Forbidden words -/

def wordGay : List Char := ['g', 'a', 'y']
def wordEblan : List Char := ['е', 'б', 'л', 'а', 'н']
def wordShutka : List Char := ['ш', 'у', 'т', 'к', 'а']

/-- `InitializeForbiddenWords`, which inserts the words, as UTF-8, into the set it is given. -/
def initializeForbiddenWords (words : List StdString) : List StdString :=
  ((words.insert (Library.Utf8.encode wordGay)).insert (Library.Utf8.encode wordEblan)).insert
    (Library.Utf8.encode wordShutka)

/-- `forbiddenWords` once `InitializeForbiddenWords` has run.  `main` and the service constructor both
run it, and the second time adds nothing to the set. -/
def forbiddenWords : List StdString :=
  initializeForbiddenWords []

theorem mem_forbiddenWords {word : StdString} :
    word ∈ forbiddenWords ↔
      word = Library.Utf8.encode wordGay ∨ word = Library.Utf8.encode wordEblan ∨
        word = Library.Utf8.encode wordShutka := by
  simp [forbiddenWords, initializeForbiddenWords, List.mem_insert_iff]
  tauto

def forbiddenWordThreshold : Nat := 3

end TextProcessingConstants

end ModerationService
