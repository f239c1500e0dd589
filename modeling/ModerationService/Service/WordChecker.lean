import ModerationService.Service.TextNormalization

/-!
# WordChecker — tokens and the forbidden-word threshold

`service/word_checker.cpp`.
-/

namespace ModerationService
namespace WordChecker

open Library Icu TextProcessingConstants

structure TokenizeState where
  tokens : List StdString
  currentWord : StdString

/-- `if (!currentWord.empty()) { tokens.push_back(currentWord); currentWord.clear(); }`. -/
def pushWord (s : TokenizeState) : TokenizeState :=
  if !s.currentWord.isEmpty then
    { tokens := s.tokens ++ [s.currentWord], currentWord := [] }
  else
    s

def tokenizeStep (icu : Icu) (character : UChar32) (s : TokenizeState) : TokenizeState :=
  if icu.uIsalnum character then
    let charStr := append [] character
    let utf8char := toUTF8String charStr
    { s with currentWord := s.currentWord ++ utf8char }
  else
    pushWord s

/-- Only this loop checks `i + 1 < text.length()` before it steps over a trail surrogate. -/
def tokenizeBody (icu : Icu) (text : UnicodeString) (i : Nat) (s : TokenizeState) :
    Nat × TokenizeState :=
  let character := Utf16.char32At text i
  let i' := if Utf16.isLead (Utf16.charAt text i) && decide (i + 1 < text.length) then i + 1 else i
  (i', tokenizeStep icu character s)

def tokenize (icu : Icu) (textN : StdString) : List StdString :=
  let text := icu.fromUTF8 textN
  (pushWord (ForLoop.run text.length (tokenizeBody icu text) ⟨[], []⟩)).tokens

/-- `std::count_if` over the tokens.  A text has fewer than 2^31 code units, hence fewer tokens, so
the count is the same in the `unsigned int` the source keeps it in (`forbiddenWordCount32_eq`). -/
def forbiddenWordCount (textN : List StdString) : Nat :=
  textN.countP (fun word => decide (word ∈ forbiddenWords))

def wordChecking (textN : List StdString) : Bool :=
  decide (forbiddenWordThreshold < forbiddenWordCount textN)

/-! ## The count as an `unsigned int` -/

/-- The result of `std::count_if` narrowed to `unsigned int`. -/
def forbiddenWordCount32 (textN : List StdString) : UInt32 :=
  UInt32.ofNat (forbiddenWordCount textN)

theorem forbiddenWordCount_le_length (textN : List StdString) :
    forbiddenWordCount textN ≤ textN.length :=
  List.countP_le_length

/-- Narrowing loses nothing below 2^32 tokens. -/
theorem forbiddenWordCount32_eq {textN : List StdString} (h : textN.length < 2 ^ 32) :
    (forbiddenWordCount32 textN).toNat = forbiddenWordCount textN := by
  have hle := forbiddenWordCount_le_length textN
  exact UInt32.toNat_ofNat_of_lt' (Nat.lt_of_le_of_lt hle h)

end WordChecker
end ModerationService
