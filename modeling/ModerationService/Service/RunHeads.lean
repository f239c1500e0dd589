import ModerationService.Service.LoopRefinement

/-!
# RunHeads — what `RepetitionNormalization` keeps of a run

The loop compares every code point with the one it kept last, and starts from the value 0, which is
the code point U+0000.  A text that starts with U+0000 loses its first run as a whole; of every other
text exactly the heads of the runs are kept.
-/

namespace ModerationService
namespace RunHeads

open Library Library.Collapse Icu CodePoints TextNormalization LoopRefinement

variable {icu : Icu} {textN : StdString}

/-- One code point of every run is kept, and what follows from it. -/
structure KeepsHeads (icu : Icu) (textN : StdString) : Prop where
  heads : repetitionNormalization icu textN = Utf8.encode (runHeads (icu.decodeUTF8 textN))
  /-- a text without adjacent repeats is returned unchanged -/
  unchanged : (icu.decodeUTF8 textN).IsChain (· ≠ ·) →
    repetitionNormalization icu textN = Utf8.encode (icu.decodeUTF8 textN)
  /-- a text does not become empty -/
  nonempty : icu.decodeUTF8 textN ≠ [] → repetitionNormalization icu textN ≠ []
  /-- the first code point stays the first -/
  first : ∀ c ∈ (icu.decodeUTF8 textN).head?,
    ∃ cs, repetitionNormalization icu textN = Utf8.encode (c :: cs)

/-- A run of U+0000 at the front is taken for a repeat of the sentinel. -/
theorem repetitionNormalization_null (h : (icu.decodeUTF8 textN).head? = some null) :
    repetitionNormalization icu textN = Utf8.encode (runHeads (icu.decodeUTF8 textN)).tail := by
  rw [repetitionNormalization_eq, repetitionStage, dropRepeats_sentinel h]

theorem repetitionNormalization_heads (h : (icu.decodeUTF8 textN).head? ≠ some null) :
    repetitionNormalization icu textN = Utf8.encode (runHeads (icu.decodeUTF8 textN)) := by
  rw [repetitionNormalization_eq, repetitionStage, dropRepeats_eq_runHeads h]

/-- The heads of the runs are kept exactly when the text does not start with U+0000. -/
theorem keepsHeads_iff :
    KeepsHeads icu textN ↔ (icu.decodeUTF8 textN).head? ≠ some null := by
  constructor
  · intro hkeeps hnull
    have hsame : (runHeads (icu.decodeUTF8 textN)).tail = runHeads (icu.decodeUTF8 textN) :=
      Utf8.encode_injective ((repetitionNormalization_null hnull).symm.trans hkeeps.heads)
    have hhead : (runHeads (icu.decodeUTF8 textN)).head? = some null := by
      rw [head?_runHeads, hnull]
    rcases List.head?_eq_some_iff.1 hhead with ⟨cs, hcs⟩
    rw [hcs, List.tail_cons] at hsame
    exact List.cons_ne_self null cs hsame.symm
  · intro hnull
    have hheads := repetitionNormalization_heads hnull
    have hfirst : ∀ c ∈ (icu.decodeUTF8 textN).head?,
        ∃ cs, repetitionNormalization icu textN = Utf8.encode (c :: cs) := by
      intro c hc
      rw [← head?_runHeads] at hc
      rcases List.head?_eq_some_iff.1 hc with ⟨cs, hcs⟩
      exact ⟨cs, by rw [hheads, hcs]⟩
    refine ⟨hheads, ?_, ?_, hfirst⟩
    · intro hchain
      rw [hheads, runHeads_eq_self hchain]
    · intro hne
      rcases List.exists_cons_of_ne_nil hne with ⟨c, cs, hcs⟩
      rcases hfirst c (by simp [hcs]) with ⟨ds, hds⟩
      rw [hds]
      simp [String.utf8EncodeChar_ne_nil]

/-- The text is the single code point U+0000, and the output is empty. -/
theorem keepsHeads_null : ¬ KeepsHeads SampleIcu.sampleIcu [0x00] := by
  intro hkeeps
  have hempty : repetitionNormalization SampleIcu.sampleIcu [0x00] = [] := by
    decide
  exact hkeeps.nonempty (by decide) hempty

end RunHeads
end ModerationService
