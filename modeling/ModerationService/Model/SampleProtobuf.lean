import ModerationService.Model.Messages

/-!
# SampleProtobuf — a concrete codec for the messages, and the object of a key

A `Protobuf` whose wire format is two decimal numerals and the text, separated by blanks.  It is not
the format of `protoc`, but it has the properties the service relies on: parsing undoes serialising,
and a type that was never set reads back as `OBJECT_TYPE_UNSPECIFIED`.

`stringObject` is what stands in memory where a `std::string` of the GNU library lies.
-/

namespace ModerationService
namespace SampleProtobuf

open Library

def encodeRequest (request : ModerateObjectRequest) : StdString :=
  Decimal.signed request.id.toInt ++
    0x20 :: (Decimal.signed request.type.toInt ++ 0x20 :: request.text)

/-- The bytes up to the first blank, and those after it. -/
def splitBlank (bytes : StdString) : StdString × StdString :=
  (bytes.takeWhile (· ≠ 0x20), (bytes.dropWhile (· ≠ 0x20)).tail)

def decodeRequest (bytes : StdString) : Option ModerateObjectRequest :=
  let (id, rest) := splitBlank bytes
  let (type, text) := splitBlank rest
  match Decimal.parseInt id, Decimal.parseInt type with
  | some id, some type => some { id := Int64.ofInt id, text := text, type := Int32.ofInt type }
  | _, _ => none

def sampleProtobuf : Protobuf where
  serializeRequest := fun request => some (encodeRequest request)
  parseRequest := decodeRequest
  serializeResponse := fun response => some [if response.success then 1 else 0]
  objectTypeIsValid := fun type => decide (0 ≤ type.toInt ∧ type.toInt ≤ 3)

/-- The object of a string of at most 15 bytes on a machine with addresses of 64 bits: the address of
its characters, which is 16 past its own, the number of characters, and the characters. -/
def stringObject (address : UInt64) (key : StdString) (i : Nat) : UInt8 :=
  let littleEndian (n : UInt64) : StdString :=
    (List.range 8).map (fun k => (n >>> UInt64.ofNat (8 * k)).toUInt8)
  (littleEndian (address + 16) ++ littleEndian (UInt64.ofNat key.length) ++ key).getD i 0

/-- The object lies where `new` has put it, at a multiple of 16. -/
def sampleKeyObject (key : StdString) : Nat → UInt8 :=
  stringObject 0x5581A3C4D000 key

theorem signed_no_blank (n : Int) : ∀ b ∈ Decimal.signed n, b ≠ 0x20 := by
  have hdigits : ∀ b ∈ Decimal.numeral n.natAbs, b ≠ 0x20 := by
    rintro b hb rfl
    exact absurd (Decimal.isDigit_numeral n.natAbs _ hb) (by decide)
  intro b hb
  unfold Decimal.signed at hb
  split_ifs at hb
  · rcases List.mem_cons.1 hb with rfl | hb
    · decide
    · exact hdigits b hb
  · exact hdigits b hb

theorem splitBlank_append {bs : StdString} (h : ∀ b ∈ bs, b ≠ 0x20) (rest : StdString) :
    splitBlank (bs ++ 0x20 :: rest) = (bs, rest) := by
  have hall : ∀ b ∈ bs, decide (b ≠ 0x20) = true := fun b hb => decide_eq_true (h b hb)
  rw [splitBlank, List.takeWhile_append_of_pos hall, List.dropWhile_append_of_pos hall]
  simp

theorem sample_roundTrips : sampleProtobuf.RoundTrips := by
  refine ⟨?_⟩
  intro request bytes hbytes
  have hencode : encodeRequest request = bytes := Option.some.inj hbytes
  show decodeRequest bytes = some request
  rw [← hencode, decodeRequest, encodeRequest, splitBlank_append (signed_no_blank _)]
  simp only [splitBlank_append (signed_no_blank _), Decimal.parseInt_signed, Int64.ofInt_toInt,
    Int32.ofInt_toInt]

end SampleProtobuf
end ModerationService
