import ModerationService.Library.Collapse
import ModerationService.Service.TextProcessor

/-!
# CodePoints — the stages as functions on code points

The abstract counterpart of the pipeline: each stage as a function on the list of code points of its
input.  The index loops over UTF-16 refine these functions (`LoopRefinement`): on well-formed text
every loop visits each code point once, and the UTF-8 hand-over between two stages loses nothing.
-/

namespace ModerationService
namespace CodePoints

open Library Library.Runs Library.Collapse Icu TextProcessingConstants
open TextNormalization LeetspeakNormalization WordChecker TextProcessor

/-! ## The list functions -/

def visible (c : Char) : Bool :=
  !invisible c.toNat

def visibleStage (cs : List Char) : List Char :=
  cs.filter visible

def whitespaceStage (icu : Icu) (cs : List Char) : List Char :=
  squeeze icu.isWhitespace ' ' true cs

def null : Char := Char.ofNat 0

def repetitionStage (cs : List Char) : List Char :=
  dropRepeats null cs

def lookup (map : CharMap) (c : Char) : Option Char :=
  (map.find? (fun entry => entry.1 == c)).map (fun entry => entry.2)

/-- The leetspeak map of an orientation, code point by code point. -/
def leetChar (isCyrillic : Bool) (c : Char) : Char :=
  if isCyrillic then
    ((lookup homoglyphMap c).or (lookup leetMapCyrillic c)).getD c
  else
    (lookup leetMapLatin c).getD c

def leetStage (isCyrillic : Bool) (cs : List Char) : List Char :=
  cs.map (leetChar isCyrillic)

def cyrillic (c : Char) : Bool :=
  cyrillicLetter c.toNat

def latin (c : Char) : Bool :=
  latinLetter c.toNat

def primarilyCyrillic (cs : List Char) : Bool :=
  decide (cs.countP latin < cs.countP cyrillic)

def tokens (icu : Icu) (cs : List Char) : List (List Char) :=
  runs icu.isalnum cs

/-- The code points of `TextNormalization(textN)`. -/
def normalizedText (icu : Icu) (textN : StdString) : List Char :=
  if uFailure icu.getNFCInstance then
    []
  else
    let (normalized, status) := icu.normalize (icu.decodeUTF8 textN)
    if uFailure status then [] else icu.trimmed (icu.toLower normalized)

/-- The three collapsing stages. -/
def collapsed (icu : Icu) (cs : List Char) : List Char :=
  repetitionStage (whitespaceStage icu (visibleStage cs))

/-- The orientation chosen for a normalised text. -/
def orientation (icu : Icu) (cs : List Char) : Bool :=
  primarilyCyrillic (collapsed icu cs)

/-- The tokens of a normalised text under a given orientation. -/
def tokensUnder (icu : Icu) (isCyrillic : Bool) (cs : List Char) : List (List Char) :=
  tokens icu (leetStage isCyrillic (collapsed icu cs))

def forbiddenCount (words : List (List Char)) : Nat :=
  words.countP (fun word => decide (Utf8.encode word ∈ forbiddenWords))

/-- The verdict on a normalised text. -/
def verdict (icu : Icu) (cs : List Char) : Bool :=
  decide (forbiddenWordThreshold < forbiddenCount (tokensUnder icu (orientation icu cs) cs))

/-! ## Facts about single code points -/

theorem toNat_inj {c d : Char} : c.toNat = d.toNat ↔ c = d := by
  constructor
  · intro h
    exact Char.toNat_inj.1 h
  · rintro rfl
    rfl

theorem find_toNat (map : CharMap) (c : Char) :
    find map c.toNat = (lookup map c).map Char.toNat := by
  have hkey : (fun entry : Char × Char => entry.1.toNat == c.toNat) =
      (fun entry => entry.1 == c) := by
    funext entry
    simp [toNat_inj, Bool.beq_eq_decide_eq]
  simp [find, lookup, hkey, Function.comp_def]

theorem normalized_toNat (isCyrillic : Bool) (c : Char) :
    normalized isCyrillic c.toNat = (leetChar isCyrillic c).toNat := by
  cases isCyrillic with
  | true =>
      -- the homoglyph map is asked first
      cases hh : lookup homoglyphMap c with
      | some d =>
          simp [normalized, leetChar, find_toNat, hh]
      | none =>
          cases hl : lookup leetMapCyrillic c <;> simp [normalized, leetChar, find_toNat, hh, hl]
  | false =>
      cases hl : lookup leetMapLatin c <;> simp [normalized, leetChar, find_toNat, hl]

/-- The two ranges of letters the orientation counts are disjoint. -/
theorem latin_of_cyrillic {c : Char} (h : cyrillic c = true) : latin c = false := by
  have hc := (cyrillicLetter_iff c.toNat).1 h
  cases hl : latin c with
  | false =>
      rfl
  | true =>
      have hc' := (latinLetter_iff c.toNat).1 hl
      omega

end CodePoints
end ModerationService
