import Craftd.Protocol.Wire

/-!
# Metadata that was sent

`SV_BufferAddMetadata` puts the type of an item in front of it as it is, and
`SV_BufferRemoveMetadata` takes the type from the upper three bits of that byte.
Every type is below 7, so every item is read back as a byte: metadata comes back
exactly when all its items are bytes.  Floats are not even sent: the union is passed as a
whole where a double is taken.
-/

namespace Craftd.Protocol

open Craftd.Containers ByteReader

/-- An item came back with its type and value.  The NUL that the decoder counts behind a
string may be there or not. -/
def SameItem : SVData → SVData → Prop
  | .S sent, received => ∃ string, received = .S string ∧
      (string.content = sent.content ∨ string.content = sent.content ++ [0])
  | sent, received => received = sent

theorem SameItem.type_eq {sent received : SVData} (h : SameItem sent received) :
    received.type = sent.type := by
  cases sent with
  | S _ =>
      obtain ⟨string, rfl, -⟩ := h
      rfl
  | _ => exact congrArg SVData.type h

/-- A decoder returned these items and left these bytes. -/
def CameBack (result : EStateM.Result Fault Source SVMetadata) (items : SVMetadata)
    (rest : List Byte) : Prop :=
  ∃ received source, result = .ok received source ∧ List.Forall₂ SameItem items received ∧
    source.bytes = rest

variable {items : SVMetadata} {item : SVData} {header value : SVByte} {bytes rest : List Byte}
  {rounds asked : ℕ}

/-! ## One item -/

/-- No type has one of the upper three bits, where the decoder looks for it. -/
theorem SVData.type_shifted (item : SVData) :
    item.type.sshiftRight 5 = 0 ∧ item.type ≠ 127 := by
  have hsmall : ∀ type : SVByte, type.toNat < 7 → type.sshiftRight 5 = 0 ∧ type ≠ 127 := by
    decide +kernel
  apply hsmall
  cases item <;> simp [SVData.type]

/-- An item that is not a float is sent behind its type. -/
theorem exists_bufferAddData (hfloat : ∀ value, item ≠ .f value)
    (hstring : ∀ string, item = .S string → svStringSanitize string = some string) :
    ∃ payload, bufferAddData item = .ok (item.type :: payload) := by
  cases item with
  | f value => exact absurd rfl (hfloat value)
  | S string =>
      have hadd : bufferAddString string =
          .ok (BigEndian.toBytes 2 string.size ++ string.content) := by
        rw [bufferAddString, hstring string rfl]
      refine ⟨BigEndian.toBytes 2 string.size ++ string.content, ?_⟩
      rw [bufferAddData, hadd, bufferAddByte_eq]
      rfl
  | sbs first second third =>
      refine ⟨bufferAddShort first ++ bufferAddByte second ++ bufferAddShort third, ?_⟩
      simp [bufferAddData]
  | iii first second third =>
      refine ⟨bufferAddInteger first ++ bufferAddInteger second ++ bufferAddInteger third, ?_⟩
      simp [bufferAddData]
  | _ => exact ⟨_, by rw [bufferAddData, bufferAddByte_eq]; rfl⟩

/-- Behind a byte below 32 that is not the end, a round reads a byte. -/
theorem removeMetadataRound (hheader : header.sshiftRight 5 = 0) (hend : header ≠ 127) :
    removeMetadataLoop (rounds + 1) ⟨header :: bytes, asked⟩ =
      (do
        let value ← bufferRemoveByte
        let items ← removeMetadataLoop rounds
        return .b value :: items : Remove SVMetadata) ⟨bytes, asked + 1⟩ := by
  have hfirst : bufferRemoveByte ⟨header :: bytes, asked⟩ = .ok header ⟨bytes, asked + 1⟩ := by
    have hread := reads_bufferRemoveByte header bytes asked
    rwa [bufferAddByte_eq] at hread
  have hdata : bufferRemoveData header = do return .b (← bufferRemoveByte) := by
    rw [bufferRemoveData, hheader]
    rfl
  rw [removeMetadataLoop]
  simp only [List.cons_ne_nil, if_false]
  rw [bind_ok hfirst, if_neg hend, hdata]
  rfl

private theorem exists_byte_of_round (hheader : header.sshiftRight 5 = 0) (hend : header ≠ 127)
    {received : SVMetadata} {source : Source}
    (hrun : removeMetadataLoop (rounds + 1) ⟨header :: bytes, asked⟩ = .ok received source) :
    ∃ value after, received = .b value :: after := by
  rw [removeMetadataRound hheader hend] at hrun
  obtain ⟨value, middle, -, hrun⟩ := bind_eq_ok hrun
  obtain ⟨after, last, -, hrun⟩ := bind_eq_ok hrun
  cases hrun
  exact ⟨value, after, rfl⟩

/-- A byte comes back, and the rest with it if it does. -/
theorem cameBack_byte :
    CameBack (removeMetadataLoop (rounds + 1) ⟨0 :: value :: bytes, asked⟩) (.b value :: items)
        rest ↔
      CameBack (removeMetadataLoop rounds ⟨bytes, asked + 2⟩) items rest := by
  have hsecond : bufferRemoveByte ⟨value :: bytes, asked + 1⟩ = .ok value ⟨bytes, asked + 2⟩ := by
    have hread := reads_bufferRemoveByte value bytes (asked + 1)
    rwa [bufferAddByte_eq] at hread
  rw [removeMetadataRound (by decide) (by decide), bind_ok hsecond]
  constructor
  · rintro ⟨received, source, hrun, hsame, hrest⟩
    obtain ⟨after, _, hafter, hrun⟩ := bind_eq_ok hrun
    cases hrun
    cases hsame with
    | cons _ hsame => exact ⟨after, source, hafter, hsame, hrest⟩
  · rintro ⟨after, last, hafter, hsame, hrest⟩
    refine ⟨.b value :: after, last, ?_, .cons rfl hsame, hrest⟩
    rw [bind_ok hafter]
    rfl

theorem not_cameBack (htype : item.type ≠ 0) :
    ¬ CameBack (removeMetadataLoop (rounds + 1) ⟨item.type :: bytes, asked⟩) (item :: items)
      rest := by
  rintro ⟨received, source, hrun, hsame, -⟩
  obtain ⟨hheader, hend⟩ := item.type_shifted
  obtain ⟨value, after, rfl⟩ := exists_byte_of_round hheader hend hrun
  cases hsame with
  | cons hitem _ => exact htype hitem.type_eq.symm

/-! ## All items -/

/-- Metadata is sent when no item is a float, as its first item and what is sent of the
others. -/
theorem exists_bufferAddMetadata
    (hstrings : ∀ string, .S string ∈ items → svStringSanitize string = some string) :
    (∃ wire, bufferAddMetadata items = .ok wire) ↔ ∀ value, .f value ∉ items := by
  induction items with
  | nil => exact iff_of_true ⟨[127], rfl⟩ fun value hmem => by cases hmem
  | cons item items ih =>
      have hrest := ih fun string hmem => hstrings string (.tail _ hmem)
      constructor
      · rintro ⟨wire, hadd⟩ value hmem
        rw [bufferAddMetadata] at hadd
        rcases List.mem_cons.mp hmem with rfl | hlater
        · cases hadd
        · cases hitem : bufferAddData item with
          | error fault =>
              rw [hitem] at hadd
              cases hadd
          | ok first =>
              cases hitems : bufferAddMetadata items with
              | error fault =>
                  rw [hitem, hitems] at hadd
                  cases hadd
              | ok after => exact hrest.mp ⟨after, hitems⟩ value hlater
      · intro hfloat
        obtain ⟨payload, hpayload⟩ := exists_bufferAddData
          (fun value (heq : item = .f value) => hfloat value (heq ▸ .head _))
          fun string (heq : item = .S string) => hstrings string (heq ▸ .head _)
        obtain ⟨after, hafter⟩ := hrest.mpr fun value hmem => hfloat value (.tail _ hmem)
        refine ⟨item.type :: payload ++ after, ?_⟩
        rw [bufferAddMetadata, hpayload, hafter]
        rfl

private theorem cameBack_loop_iff
    (hstrings : ∀ string, .S string ∈ items → svStringSanitize string = some string)
    (hfloat : ∀ value, .f value ∉ items) {wire : List Byte}
    (hwire : bufferAddMetadata items = .ok wire) (rest : List Byte)
    (hrounds : wire.length ≤ rounds) :
    CameBack (removeMetadataLoop rounds ⟨wire ++ rest, asked⟩) items rest ↔
      ∀ item ∈ items, item.type = 0 := by
  induction items generalizing wire rounds asked with
  | nil =>
      refine iff_of_true ?_ (by simp)
      cases hwire
      obtain ⟨rounds, rfl⟩ := Nat.exists_eq_add_of_lt hrounds
      exact ⟨[], ⟨rest, asked + 1⟩, rfl, .nil, rfl⟩
  | cons item items ih =>
      have hstrings' : ∀ string, .S string ∈ items → svStringSanitize string = some string :=
        fun string hmem => hstrings string (.tail _ hmem)
      have hfloat' : ∀ value, .f value ∉ items := fun value hmem => hfloat value (.tail _ hmem)
      obtain ⟨after, hafter⟩ := (exists_bufferAddMetadata hstrings').mpr hfloat'
      obtain ⟨payload, hpayload⟩ := exists_bufferAddData
        (fun value (heq : item = .f value) => hfloat value (heq ▸ .head _))
        fun string (heq : item = .S string) => hstrings string (heq ▸ .head _)
      obtain rfl : item.type :: payload ++ after = wire := by
        rw [bufferAddMetadata, hpayload, hafter] at hwire
        exact Except.ok.inj hwire
      obtain ⟨rounds, rfl⟩ := Nat.exists_eq_add_of_lt (Nat.zero_lt_of_lt hrounds)
      rw [List.length_append, List.length_cons] at hrounds
      rw [List.forall_mem_cons]
      by_cases htype : item.type = 0
      -- a byte is the one item whose header is its type
      · cases item with
        | b value =>
            have hbyte : payload = [value] := by
              rw [bufferAddData, bufferAddByte_eq, bufferAddByte_eq] at hpayload
              cases hpayload
              rfl
            subst hbyte
            calc CameBack (removeMetadataLoop (0 + rounds + 1)
                    ⟨[0, value] ++ after ++ rest, asked⟩) (.b value :: items) rest ↔
                  CameBack (removeMetadataLoop (0 + rounds) ⟨after ++ rest, asked + 2⟩) items
                    rest := cameBack_byte
              _ ↔ ∀ item ∈ items, item.type = 0 :=
                ih hstrings' hfloat' hafter (by simp at hrounds; omega)
              _ ↔ _ := by simp [SVData.type]
        | _ => cases htype
      -- an item of another type is read as a byte at another index
      · exact iff_of_false (not_cameBack htype) fun h => htype h.1

/-- **Metadata round trip.**  What was sent is read back exactly when all the items are bytes;
and metadata is sent exactly when no item is a float. -/
theorem metadata_round_trip_iff
    (hstrings : ∀ string, .S string ∈ items → svStringSanitize string = some string)
    (rest : List Byte) :
    ((∃ wire, bufferAddMetadata items = .ok wire ∧
        CameBack (bufferRemoveMetadata ⟨wire ++ rest, 0⟩) items rest) ↔
      ∀ item ∈ items, item.type = 0) ∧
    ((∃ wire, bufferAddMetadata items = .ok wire) ↔ ∀ value, .f value ∉ items) := by
  have hsent := exists_bufferAddMetadata hstrings
  have hback : ∀ {wire}, bufferAddMetadata items = .ok wire →
      (CameBack (bufferRemoveMetadata ⟨wire ++ rest, 0⟩) items rest ↔
        ∀ item ∈ items, item.type = 0) := by
    intro wire hwire
    refine cameBack_loop_iff hstrings (hsent.mp ⟨wire, hwire⟩) hwire rest ?_
    rw [List.length_append]
    exact Nat.le_add_right _ _
  refine ⟨⟨fun ⟨wire, hwire, hsame⟩ => (hback hwire).mp hsame, fun hbytes => ?_⟩, hsent⟩
  have hfloat : ∀ value, .f value ∉ items := fun value hmem =>
    absurd (hbytes _ hmem) (by simp [SVData.type])
  obtain ⟨wire, hwire⟩ := hsent.mpr hfloat
  exact ⟨wire, hwire, (hback hwire).mpr hbytes⟩

theorem metadata_round_trip_iff_mixed :
    (∃ wire, bufferAddMetadata [.b 1, .b 127] = .ok wire ∧
      CameBack (bufferRemoveMetadata ⟨wire ++ [9], 0⟩) [.b 1, .b 127] [9]) ∧
    ∃ string, string.content = [0x41] ∧ ∃ wire, bufferAddMetadata [.b 1, .S string] = .ok wire ∧
      ¬ CameBack (bufferRemoveMetadata ⟨wire ++ [9], 0⟩) [.b 1, .S string] [9] := by
  have hbytes : ∀ string, .S string ∈ ([.b 1, .b 127] : SVMetadata) →
      svStringSanitize string = some string := by simp
  refine ⟨(metadata_round_trip_iff hbytes [9]).1.mpr (by simp [SVData.type]),
    ⟨[0x41], 1, rfl⟩, rfl, ?_⟩
  have hletter : ∀ string, .S string ∈ ([.b 1, .S ⟨[0x41], 1, rfl⟩] : SVMetadata) →
      svStringSanitize string = some string := by
    intro string hmem
    obtain rfl : string = ⟨[0x41], 1, rfl⟩ := by simpa using hmem
    decide +kernel
  obtain ⟨hsame, hsent⟩ := metadata_round_trip_iff hletter [9]
  obtain ⟨wire, hwire⟩ := hsent.mpr (by simp)
  exact ⟨wire, hwire, fun hback => absurd (hsame.mp ⟨wire, hwire, hback⟩) (by simp [SVData.type])⟩

/-- The short 5 comes back as the byte 0, and its low byte becomes the header of another item,
whose value is the terminator. -/
theorem metadata_short_lost :
    bufferAddMetadata [.s 5] = .ok [1, 0, 5, 127] ∧
      bufferRemoveMetadata ⟨[1, 0, 5, 127], 0⟩ = .ok [.b 0, .b 127] ⟨[], 4⟩ ∧
      ¬ CameBack (bufferRemoveMetadata ⟨[1, 0, 5, 127], 0⟩) [.s 5] [] :=
  ⟨rfl, rfl, fun h : CameBack (removeMetadataLoop (3 + 1) ⟨(SVData.s 5).type :: _, 0⟩) _ _ =>
    not_cameBack (by decide : (SVData.s 5).type ≠ 0) h⟩

end Craftd.Protocol
