import ModerationService.Kafka.Intake

/-!
# MessageKey — which keys `ProcessMessage` accepts

The comment in the source asks for digits with an optional sign in front.  The code reads as many
bytes as the key has, but those of the string object that `RdKafka::Message::key` returns; of these
the check looks at the first only, and `std::stoll` reads the numeral at the front and ignores what
follows.
-/

namespace ModerationService
namespace MessageKey

open Library Decimal Kafka KafkaConsumer Intake

/-! ## The id of a key -/

/-- `stoll` succeeds when the number at the front is a `long long`. -/
theorem stoll_eq_ok_iff {s : StdString} {id : Int64} :
    StdLib.stoll s = .ok id ↔ parseInt s = some id.toInt := by
  have hlow : -2 ^ 63 ≤ id.toInt := id.le_toInt
  have hhigh : id.toInt < 2 ^ 63 := id.toInt_lt
  unfold StdLib.stoll
  cases hparse : parseInt s with
  | none =>
      simp
  | some n =>
      by_cases hrange : -2 ^ 63 ≤ n ∧ n < 2 ^ 63
      · have hofInt : (Int64.ofInt n).toInt = n := Int64.toInt_ofInt_of_le hrange.1 hrange.2
        simp only [hrange, and_self, if_true, Except.ok.injEq, Option.some.injEq]
        rw [← Int64.toInt_inj, hofInt]
      · have hne : n ≠ id.toInt := by
          rintro rfl
          exact hrange ⟨hlow, hhigh⟩
        simp only [if_neg hrange, reduceCtorEq, Option.some.injEq, hne]

/-- The byte is no blank, so a key that starts with it has no blanks in front. -/
theorem startsNumeric_cons {b : UInt8} {bs : StdString} :
    startsNumeric (b :: bs) = true ↔ isDigit b = true ∨ b = 0x2D ∨ b = 0x2B := by
  simp [startsNumeric, StdLib.isdigit, or_assoc]

theorem not_isSpace_of_startsNumeric {b : UInt8} {bs : StdString}
    (h : startsNumeric (b :: bs) = true) : isSpace b = false := by
  rcases startsNumeric_cons.1 h with hdigit | rfl | rfl
  · have hb := of_decide_eq_true hdigit
    have hnot : ¬ (b.toNat = 0x20 ∨ 0x09 ≤ b.toNat ∧ b.toNat ≤ 0x0D) := by
      omega
    simpa [isSpace] using hnot
  · rfl
  · rfl

theorem startsNumeric_of_isNumeral {ds rest : StdString} {n : Int} (h : IsNumeral ds n) :
    startsNumeric (ds ++ rest) = true := by
  cases h with
  | unsigned hne hds =>
      rcases List.exists_cons_of_ne_nil hne with ⟨b, bs, rfl⟩
      exact startsNumeric_cons.2 (Or.inl (hds b (by simp)))
  | plus hne hds =>
      exact startsNumeric_cons.2 (Or.inr (Or.inr rfl))
  | minus hne hds =>
      exact startsNumeric_cons.2 (Or.inr (Or.inl rfl))

/-- A numeral for the id stands at the front: nothing comes after it, or a byte that is no digit. -/
def NumeralInFront (bytes : StdString) (id : Int64) : Prop :=
  ∃ ds rest, bytes = ds ++ rest ∧ IsNumeral ds id.toInt ∧ Stops rest

/-- Bytes stand for an id when a numeral for it stands at their front. -/
theorem keyId_eq_some_iff {key : StdString} (hkey : key ≠ []) {id : Int64} :
    keyId (some key) = some id ↔ NumeralInFront key id := by
  have hempty : key.isEmpty = false := by
    simpa using hkey
  have hid : keyId (some key) = some id ↔
      startsNumeric key = true ∧ parseInt key = some id.toInt := by
    cases hstart : startsNumeric key with
    | false =>
        simp [keyId, hempty, hstart]
    | true =>
        rw [← stoll_eq_ok_iff]
        cases hparse : StdLib.stoll key <;>
          simp [keyId, hempty, hstart, hparse, Except.toOption]
  rw [hid]
  constructor
  · rintro ⟨hstart, hparse⟩
    rcases parseInt_eq_some_iff.1 hparse with ⟨blanks, ds, rest, rfl, hblanks, hnumeral, hstops⟩
    cases blanks with
    | nil =>
        exact ⟨ds, rest, rfl, hnumeral, hstops⟩
    | cons b blanks =>
        -- `stoll` would skip the blank, but the first character has been checked
        have hspace : isSpace b = true := hblanks b (by simp)
        simp [not_isSpace_of_startsNumeric hstart] at hspace
  · rintro ⟨ds, rest, rfl, hnumeral, hstops⟩
    refine ⟨startsNumeric_of_isNumeral hnumeral, ?_⟩
    have hparse : parseInt ([] ++ (ds ++ rest)) = some id.toInt :=
      parseInt_of_isNumeral (by simp) hnumeral hstops
    simpa using hparse

theorem keyStr_of_key {answers : Answers} {message : RdKafkaMessage} {key : StdString}
    (h : message.key = some key) :
    keyStr answers message = some (bytesAt answers.keyObject key.length) := by
  simp [keyStr, h]

theorem bytesAt_ne_nil (object : Nat → UInt8) {key : StdString} (hkey : key ≠ []) :
    bytesAt object key.length ≠ [] := by
  simpa [bytesAt] using hkey

/-- The bytes read for a key stand for an id when a numeral for it stands at their front. -/
theorem keyId_keyStr {answers : Answers} {message : RdKafkaMessage} {key : StdString}
    (hmessage : message.key = some key) (hkey : key ≠ []) {id : Int64} :
    keyId (keyStr answers message) = some id ↔
      NumeralInFront (bytesAt answers.keyObject key.length) id := by
  rw [keyStr_of_key hmessage]
  exact keyId_eq_some_iff (bytesAt_ne_nil answers.keyObject hkey)

/-! ## Past the check of the key, or not -/

section Check

variable {answers : Answers} {message : RdKafkaMessage} (pb : Protobuf) (icu : Icu)
  (consumer : KafkaConsumer)

theorem processMessage_goesOn {id : Int64} (h : keyId (keyStr answers message) = some id) :
    processMessage pb icu consumer answers message =
      processPayload pb icu consumer answers message id := by
  unfold processMessage
  rw [Traced.bind_of_silent (requestId_accepted h)]

theorem processMessage_rejected (h : keyId (keyStr answers message) = none) :
    ∃ code ∈ keyErrors,
      processMessage pb icu consumer answers message = ⟨.ok (), [.logError .kKafka code]⟩ := by
  rcases requestId_rejected h with ⟨code, hcode, hrejected⟩
  refine ⟨code, hcode, ?_⟩
  have hresult : (requestId answers message).result = .ok none := by
    simp [hrejected]
  unfold processMessage
  rw [Traced.bind_of_ok hresult, hrejected]
  rfl

end Check

/-! ## Telling ids apart -/

/-- The request of the type `COMMENT` without a text. -/
def probe : ModerateObjectRequest := { type := 1 }

/-- A callback that shows the id it is called with, and nothing to respond with. -/
def probeConsumer : KafkaConsumer where
  config_ := { request_topic := [], result_topic := [] }
  callback_ := some (fun _ response request_id _ _ =>
    Traced.emit (.sendResponseAsync response [] (StdLib.toString request_id)))
  producer_ := none

/-- Nothing fails. -/
def probeAnswers (keyObject : Nat → UInt8) : Answers :=
  ⟨errNoError, fun _ => none, .returns true, true, 0, keyObject⟩

def probeMessage (key : StdString) : RdKafkaMessage :=
  ⟨errNoError, some key, SampleProtobuf.encodeRequest probe⟩

/-- Past the check, the probe shows the id. -/
theorem processPayload_probe (keyObject : Nat → UInt8) (key : StdString) (id : Int64) :
    processPayload SampleProtobuf.sampleProtobuf SampleIcu.sampleIcu probeConsumer
        (probeAnswers keyObject) (probeMessage key) id =
      ⟨.ok (), [.logError .kKafka (.named "PRODUCER_NOT_AVAILABLE"),
        .sendResponseAsync ⟨false⟩ [] (StdLib.toString id)]⟩ := by
  have hparse : SampleProtobuf.sampleProtobuf.parseRequest (probeMessage key).payload = some probe :=
    SampleProtobuf.sample_roundTrips.parse_serialize probe _ rfl
  have hverdict : TextProcessor.textProcessing SampleIcu.sampleIcu probe.text = false := by
    decide +kernel
  have hflagged : flagged SampleIcu.sampleIcu (probeAnswers keyObject) probe.text =
      ⟨.ok (some false), []⟩ := by
    refine flagged_ok _ _ ?_
    rw [← hverdict]
    exact TextProcessor.tryTextProcessing_ok (fun _ => rfl) probe.text
  unfold processPayload
  simp only [hparse, Traced.bind_of_silent hflagged]
  rfl

/-- Only one id makes the code go on as with that id. -/
theorem keyId_of_goesOn {keyObject : Nat → UInt8} {key : StdString} {id : Int64}
    (h : processMessage SampleProtobuf.sampleProtobuf SampleIcu.sampleIcu probeConsumer
        (probeAnswers keyObject) (probeMessage key) =
      processPayload SampleProtobuf.sampleProtobuf SampleIcu.sampleIcu probeConsumer
        (probeAnswers keyObject) (probeMessage key) id) :
    keyId (keyStr (probeAnswers keyObject) (probeMessage key)) = some id := by
  rw [processPayload_probe] at h
  cases hid : keyId (keyStr (probeAnswers keyObject) (probeMessage key)) with
  | none =>
      rcases processMessage_rejected SampleProtobuf.sampleProtobuf SampleIcu.sampleIcu probeConsumer
        hid with ⟨code, _, hrejected⟩
      rw [hrejected] at h
      simp at h
  | some other =>
      rw [processMessage_goesOn _ _ _ hid, processPayload_probe] at h
      have hsame : StdLib.toString other = StdLib.toString id := by
        simpa using h
      rw [StdLib.toString_injective hsame]

/-! ## The language of the keys -/

/-- The code goes on past the check of the key exactly when the whole of the key is a numeral for a
`long long`, with that number as the id, and every other key leaves nothing but a log line. -/
structure AcceptsExactly (keyObject : Nat → UInt8) (key : StdString) : Prop where
  accepts : ∀ id : Int64, IsNumeral key id.toInt → ∀ pb icu consumer answers message,
    answers.keyObject = keyObject → message.key = some key →
      processMessage pb icu consumer answers message =
        processPayload pb icu consumer answers message id
  rejects : (∀ id : Int64, ¬ IsNumeral key id.toInt) → ∀ pb icu consumer answers message,
    answers.keyObject = keyObject → message.key = some key → ∃ code ∈ keyErrors,
      processMessage pb icu consumer answers message = ⟨.ok (), [.logError .kKafka code]⟩

/-- After a numeral for a `long long` the key goes on with a byte that is not a digit. -/
def Trailing (key : StdString) : Prop :=
  ∃ (ds : StdString) (b : UInt8) (rest : StdString) (id : Int64),
    key = ds ++ b :: rest ∧ IsNumeral ds id.toInt ∧ isDigit b = false

theorem not_trailing_of_isNumeral {key : StdString} {n : Int} (h : IsNumeral key n) :
    ¬ Trailing key := by
  rintro ⟨ds, b, rest, id, rfl, hds, hb⟩
  rcases List.exists_cons_of_ne_nil hds.ne_nil with ⟨c, cs, rfl⟩
  have hdigit : isDigit b = true := h.digit_of_mem_tail b (by simp)
  simp [hb] at hdigit

theorem numeralInFront_of_isNumeral {key : StdString} {id : Int64} (h : IsNumeral key id.toInt) :
    NumeralInFront key id :=
  ⟨key, [], by simp, h, stops_nil⟩

theorem isNumeral_or_trailing {key : StdString} {id : Int64} (h : NumeralInFront key id) :
    IsNumeral key id.toInt ∨ Trailing key := by
  rcases h with ⟨ds, rest, rfl, hnumeral, hstops⟩
  cases rest with
  | nil =>
      exact Or.inl (by simpa using hnumeral)
  | cons b rest =>
      exact Or.inr ⟨ds, b, rest, id, rfl, hnumeral, hstops b rfl⟩

theorem numeralInFront_of_trailing {key : StdString} (h : Trailing key) :
    ∃ id, NumeralInFront key id := by
  rcases h with ⟨ds, b, rest, id, rfl, hnumeral, hb⟩
  refine ⟨id, ds, b :: rest, rfl, hnumeral, ?_⟩
  intro c hc
  have hsame : b = c := by
    simpa using hc
  exact hsame ▸ hb

/-- Where the bytes read are those of the key, the keys that go on after a numeral are the only ones
that are taken and should not be. -/
theorem front_iff_not_trailing (key : StdString) :
    (∀ id : Int64, NumeralInFront key id ↔ IsNumeral key id.toInt) ↔ ¬ Trailing key := by
  constructor
  · intro hsame htrailing
    rcases numeralInFront_of_trailing htrailing with ⟨id, hfront⟩
    exact not_trailing_of_isNumeral ((hsame id).1 hfront) htrailing
  · intro htrailing id
    exact ⟨fun h => (isNumeral_or_trailing h).resolve_right htrailing, numeralInFront_of_isNumeral⟩

/-! ## Three keys -/

end MessageKey
end ModerationService
