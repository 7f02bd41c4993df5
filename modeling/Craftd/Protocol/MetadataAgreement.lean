import Craftd.Protocol.Framing

/-!
# The two metadata loops

The metadata loops of `SV_PacketParsable` and the loop of `SV_BufferRemoveMetadata` run over
the same items, and each works out by itself how long an item is.  Both take the kind of an
item from its header byte by a shift to the right by five.  The check reads that byte as a
`uint8_t`, the decoder as an `SVByte`, which is signed: from 128 on the decoder's kind is
negative, it is none of the kinds 4 to 6 that need the highest bit, and it is an index into
`formats` in front of the table.

Below 128 the two loops agree item by item.  So they agree on a whole packet exactly when no
header on the way of the check is 128 or more.
-/

namespace Craftd.Protocol

open Craftd.Containers ByteReader PartialWalk

/-- The decoder, started where the check starts, takes the bytes up to and including the
terminator, and returns one item for each header of the check, with the type in the top
three bits of the header.  It returns: it never reads `formats` outside its five entries. -/
def LoopsAgree (data : List Byte) (start : Int) (headers : List Byte) (last : Int) : Prop :=
  ∃ items, bufferRemoveMetadata (sourceAt data start.toNat) =
      .ok items (sourceAt data (last.toNat + 1)) ∧
    items.map SVData.type = headers.map fun header : Byte => header >>> 5

/-- The check accepts a packet with metadata when its items lead to a terminator. -/
theorem walked_of_answers {buffer : InputBuffer} {start : Int}
    (hstart : metadataStart buffer.data = some start)
    (hparsable : Answers buffer.data .parsable) :
    ∃ headers last, Walked buffer.data start headers last ∧ Terminator buffer.data last := by
  obtain ⟨data, hlength⟩ := buffer
  obtain ⟨first, rest, type, offset, rfl, hfirst, hshort, rfl, htype, hsmall, hloop⟩ :=
    metadataStart_eq_some hstart
  obtain ⟨rounds, hanswer⟩ := hparsable
  rw [packetParsable_of_type hfirst hshort, hloop] at hanswer
  have hzero : sizeT ((offset : Int) - offset) = 0 := by
    rw [Int.sub_self]
    rfl
  rw [← hzero] at hanswer
  obtain ⟨last, hreach, hlast⟩ :=
    (metadataLoop_parsable_iff htype hlength (by omega) (by omega)).mp ⟨rounds, hanswer⟩
  obtain ⟨headers, hwalked⟩ := reaches_iff_walked.mp hreach
  exact ⟨headers, last, hwalked, hlast⟩

/-- **Where the two loops agree.**  For every packet with metadata that the check accepts, the
decoder takes what the check walked over, item for item and with the same types, exactly when
no header on that way is 128 or more. -/
theorem metadata_loops_agree_iff (buffer : InputBuffer) {start : Int}
    (hstart : metadataStart buffer.data = some start)
    (hparsable : Answers buffer.data .parsable) :
    ∃ headers last, Walked buffer.data start headers last ∧ Terminator buffer.data last ∧
      (LoopsAgree buffer.data start headers last ↔ ∀ header ∈ headers, header.toNat < 128) := by
  obtain ⟨headers, last, hwalked, hlast⟩ := walked_of_answers hstart hparsable
  refine ⟨headers, last, hwalked, hlast, ?_⟩
  obtain ⟨first, rest, type, offset, hdata, -, -, rfl, -⟩ := metadataStart_eq_some hstart
  have hrounds : buffer.data.length ≤ offset + (buffer.data.drop offset).length := by
    rw [List.length_drop]
    omega
  rcases decoder_run hwalked hlast rfl hrounds with
    ⟨⟨header, hmem, hhigh⟩, source, hloop⟩ | ⟨hall, items, hloop, htypes⟩
  · refine iff_of_false ?_ fun hlow => absurd (hlow header hmem) (not_lt.mpr hhigh)
    rintro ⟨items, hdecoded, -⟩
    cases hloop.symm.trans hdecoded
  · exact iff_of_true ⟨items, hloop, htypes⟩ hall

/-- A short, a byte and the terminator. -/
def lowItems : InputBuffer := ⟨[0x28, 0, 0, 0, 1, 0x21, 0, 7, 0x02, 9, 127], by decide⟩

theorem metadata_loops_agree_iff_low :
    LoopsAgree lowItems.data 5 [0x21, 0x02] 10 := by
  have hshort : nextItem lowItems.data 5 = some 8 := by decide
  have hbyte : nextItem lowItems.data 8 = some 10 := by decide
  have hwalked : Walked lowItems.data 5 [0x21, 0x02] 10 :=
    .item rfl hshort (.item rfl hbyte (.stop 10))
  have hlast : Terminator lowItems.data 10 := ⟨by decide, rfl⟩
  obtain ⟨headers, last, hwalked', hlast', hiff⟩ :=
    metadata_loops_agree_iff lowItems (rfl : metadataStart _ = some 5) ⟨3, by decide⟩
  obtain ⟨rfl, rfl⟩ := hwalked'.unique (nextItem_of_terminator hlast') hwalked
    (nextItem_of_terminator hlast)
  exact hiff.mpr (by decide)

/-- An item of three integers, whose header is 0xC0. -/
def highItem : InputBuffer :=
  ⟨[0x28, 0, 0, 0, 1, 0xC0, 0, 0, 0, 7, 0, 0, 0, 8, 0, 0, 0, 9, 127], by decide⟩

/-- The check walks over the three integers to the terminator, and the decoder reads
`formats` at a negative index. -/
theorem metadata_loops_disagree :
    metadataStart highItem.data = some 5 ∧ Answers highItem.data .parsable ∧
      Walked highItem.data 5 [0xC0] 18 ∧ Terminator highItem.data 18 ∧
      (∃ source, bufferRemoveMetadata (sourceAt highItem.data 5) = .error .undefined source) ∧
      ¬LoopsAgree highItem.data 5 [0xC0] 18 := by
  have hnext : nextItem highItem.data 5 = some 18 := by decide
  have hfault : bufferRemoveMetadata (sourceAt highItem.data 5) =
      .error .undefined (sourceAt highItem.data 6) := rfl
  refine ⟨rfl, ⟨2, by decide⟩, .item rfl hnext (.stop 18), ⟨by decide, rfl⟩,
    ⟨_, hfault⟩, ?_⟩
  rintro ⟨items, hdecoded, -⟩
  cases hfault.symm.trans hdecoded

end Craftd.Protocol
