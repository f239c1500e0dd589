import ModerationService.Service.LeetspeakNormalization
import ModerationService.Service.WordChecker

/-!
# TextProcessor — the staged pipeline

`service/text_processor.cpp`.  `textProcessing` is the pipeline when no stage throws, and
`textProcessingTokens` names the tokens it passes to `wordChecking`.  `tryTextProcessing` is the
pipeline as its caller sees it: any stage may throw a `std::exception`.
-/

namespace ModerationService
namespace TextProcessor

open TextNormalization LeetspeakNormalization WordChecker

/-- The text after the three collapsing stages. -/
def collapsedText (icu : Icu) (textN : StdString) : StdString :=
  let text := textNormalization icu textN
  let text := invisibleCharacterNormalization icu text
  let text := whitespaceNormalization icu text
  repetitionNormalization icu text

def textProcessingTokens (icu : Icu) (textN : StdString) : List StdString :=
  let text := collapsedText icu textN
  -- chosen once, on the collapsed text, before any letter is mapped
  let alphabetOrientation := isPrimarilyCyrillic icu text
  let text := leetspeakNormalization icu text alphabetOrientation
  tokenize icu text

def textProcessing (icu : Icu) (textN : StdString) : Bool :=
  let wordTokens := textProcessingTokens icu textN
  let bannedWordsFound := wordChecking wordTokens
  bannedWordsFound

/-! ## Stages that throw -/

/-- The calls `TextProcessing` makes, in order. -/
inductive Stage where
  | textNormalization
  | invisibleCharacterNormalization
  | whitespaceNormalization
  | repetitionNormalization
  | isPrimarilyCyrillic
  | leetspeakNormalization
  | tokenize
  | wordChecking
  deriving DecidableEq, Repr

/-- A call that throws when `fault` says so. -/
def call {α : Type} (fault : Stage → Option StdException) (stage : Stage) (value : α) :
    Except StdException α :=
  match fault stage with
  | some e => .error e
  | none => .ok value

def tryTextProcessing (icu : Icu) (fault : Stage → Option StdException) (textN : StdString) :
    Except StdException Bool := do
  let text ← call fault .textNormalization (textNormalization icu textN)
  let text ← call fault .invisibleCharacterNormalization
    (invisibleCharacterNormalization icu text)
  let text ← call fault .whitespaceNormalization (whitespaceNormalization icu text)
  let text ← call fault .repetitionNormalization (repetitionNormalization icu text)
  let alphabetOrientation ← call fault .isPrimarilyCyrillic (isPrimarilyCyrillic icu text)
  let text ← call fault .leetspeakNormalization
    (leetspeakNormalization icu text alphabetOrientation)
  let wordTokens ← call fault .tokenize (tokenize icu text)
  call fault .wordChecking (wordChecking wordTokens)

theorem call_ok {α : Type} {fault : Stage → Option StdException} {stage : Stage}
    (h : fault stage = none) (value : α) : call fault stage value = .ok value := by
  rw [call, h]

theorem call_eq_ok {α : Type} {fault : Stage → Option StdException} {stage : Stage} {value a : α}
    (h : call fault stage value = .ok a) : fault stage = none ∧ value = a := by
  unfold call at h
  cases hfault : fault stage with
  | none =>
      rw [hfault] at h
      exact ⟨rfl, Except.ok.inj h⟩
  | some e =>
      rw [hfault] at h
      cases h

/-- A result after a call means that the call returned. -/
theorem call_bind_eq_ok {α β : Type} {fault : Stage → Option StdException} {stage : Stage}
    {value : α} {next : α → Except StdException β} {b : β}
    (h : (call fault stage value >>= next) = .ok b) : fault stage = none ∧ next value = .ok b := by
  cases hcall : call fault stage value with
  | error e =>
      rw [hcall] at h
      cases h
  | ok a =>
      rcases call_eq_ok hcall with ⟨hnone, rfl⟩
      rw [hcall] at h
      exact ⟨hnone, h⟩

/-- Without a fault the pipeline returns its verdict. -/
theorem tryTextProcessing_ok {icu : Icu} {fault : Stage → Option StdException}
    (h : ∀ stage, fault stage = none) (textN : StdString) :
    tryTextProcessing icu fault textN = .ok (textProcessing icu textN) := by
  simp only [tryTextProcessing, call_ok (h _)]
  rfl

/-- Every stage is called on the way to a verdict, so a verdict means that none of them threw. -/
theorem tryTextProcessing_eq_ok {icu : Icu} {fault : Stage → Option StdException}
    {textN : StdString} {isFlagged : Bool}
    (h : tryTextProcessing icu fault textN = .ok isFlagged) :
    (∀ stage, fault stage = none) ∧ isFlagged = textProcessing icu textN := by
  have hall : ∀ stage, fault stage = none := by
    unfold tryTextProcessing at h
    rcases call_bind_eq_ok h with ⟨h1, h⟩
    rcases call_bind_eq_ok h with ⟨h2, h⟩
    rcases call_bind_eq_ok h with ⟨h3, h⟩
    rcases call_bind_eq_ok h with ⟨h4, h⟩
    rcases call_bind_eq_ok h with ⟨h5, h⟩
    rcases call_bind_eq_ok h with ⟨h6, h⟩
    rcases call_bind_eq_ok h with ⟨h7, h⟩
    rcases call_eq_ok h with ⟨h8, _⟩
    -- every constructor is one of the calls just peeled off
    intro stage
    cases stage with
    | textNormalization => exact h1
    | invisibleCharacterNormalization => exact h2
    | whitespaceNormalization => exact h3
    | repetitionNormalization => exact h4
    | isPrimarilyCyrillic => exact h5
    | leetspeakNormalization => exact h6
    | tokenize => exact h7
    | wordChecking => exact h8
  refine ⟨hall, ?_⟩
  rw [tryTextProcessing_ok hall] at h
  exact (Except.ok.inj h).symm

end TextProcessor
end ModerationService
