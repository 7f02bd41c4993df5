import Craftd.Protocol.MetadataWalk

/-!
# What makes the length check give up

`SV_PacketParsable` refuses an input for good, with `EILSEQ`, at an item of metadata
whose header has all three bits of its type set.  `BadItem` says that the items of the
first packet lead there, and `answers_badSequence_iff` that nothing else is refused.
-/

namespace Craftd.Protocol

open Craftd.Containers ByteReader PartialWalk Relation

/-- The items of the packet in the buffer lead to one with a header that has no type. -/
def BadItem (data : List Byte) : Prop :=
  ∃ start last header, metadataStart data = some start ∧ Reaches (nextItem data) start last ∧
    0 ≤ last ∧ data[last.toNat]? = some header ∧ 0xE0 ≤ header

/-! ## Outside the metadata loops -/

section Arms

variable {data : List Byte}

theorem check_ne_badSequence (type : SVPacketType) (extra : Nat) :
    check data type extra ≠ .badSequence := by
  unfold check
  split_ifs <;> nofun

theorem peek_ne_badSequence {index n : Nat} {next : Nat → Framing}
    (hnext : ∀ value, next value ≠ .badSequence) : peek data index n next ≠ .badSequence := by
  unfold peek
  split_ifs
  · exact hnext _
  · nofun

private theorem windowItemsLoop_ne_badSequence (items extra : Nat) :
    windowItemsLoop data items extra ≠ .badSequence := by
  induction items generalizing extra with
  | zero => exact check_ne_badSequence _ _
  | succ items ih =>
      rw [windowItemsLoop]
      split_ifs
      · exact fun hbad => by cases hbad
      · exact peek_ne_badSequence fun id => ih _

private theorem updateSignTexts_ne_badSequence (texts offset extra : Nat) :
    updateSignTexts data texts offset extra ≠ .badSequence := by
  induction texts generalizing offset extra with
  | zero => exact peek_ne_badSequence fun length => check_ne_badSequence _ _
  | succ texts ih =>
      rw [updateSignTexts]
      refine peek_ne_badSequence fun length => ?_
      split_ifs
      · exact fun hbad => by cases hbad
      · exact ih _ _

theorem packetComplete_ne_badSequence {type : SVPacketType} (hmetadata : type ≠ .entityMetadata)
    (hmob : type ≠ .spawnMob) (rounds : Nat) :
    packetComplete rounds data type ≠ some .badSequence := by
  intro hbad
  cases type
  case entityMetadata => exact hmetadata rfl
  case spawnMob => exact hmob rfl
  case windowItems =>
    exact peek_ne_badSequence (fun _ => windowItemsLoop_ne_badSequence _ _)
      (Option.some.inj hbad)
  case updateSign => exact updateSignTexts_ne_badSequence _ _ _ (Option.some.inj hbad)
  all_goals
    first
      | exact peek_ne_badSequence (fun _ => check_ne_badSequence _ _) (Option.some.inj hbad)
      | cases hbad

end Arms

/-! ## In the loops -/

section Loop

variable {data : List Byte} {type : SVPacketType} {offset : Nat} {position last : Int}
  {header : Byte}

theorem type_of_bad (hbad : 0xE0 ≤ header) : (header >>> 5).toNat = 7 ∧ header ≠ 127 := by
  revert hbad
  revert header
  decide

private theorem bad_of_type (htype : (header >>> 5).toNat = 7) : 0xE0 ≤ header := by
  revert htype
  revert header
  decide

private theorem nextItem_of_bad (hlast : 0 ≤ last) (hheader : data[last.toNat]? = some header)
    (hbad : 0xE0 ≤ header) : nextItem data last = none := by
  obtain ⟨htype, hend⟩ := type_of_bad hbad
  unfold nextItem
  rw [if_neg (by omega), hheader]
  dsimp only
  rw [if_neg hend, itemSize, htype]
  rfl

/-- The round at an item that no item follows refuses exactly a bad one. -/
theorem metadataLoop_bad_iff (htype : packetLength type = offset + 1)
    (hlength : data.length < 2 ^ 63) (hpos : 0 ≤ position) (hlt : position < data.length)
    (h : nextItem data position = none) (rounds : Nat) :
    metadataLoop data type offset (rounds + 1) (sizeT (position - offset)) =
        some .badSequence ↔
      ∃ header, data[position.toNat]? = some header ∧ 0xE0 ≤ header := by
  obtain ⟨header, answer, hheader, hround, hcases⟩ :=
    metadataLoop_stops htype hlength hpos hlt h
  rw [hround, Option.some.injEq, hheader]
  simp only [Option.some.injEq, exists_eq_left']
  rcases hcases with ⟨rfl, rfl⟩ | ⟨-, hkind, rfl⟩ | ⟨-, hkind, rfl⟩
  · exact iff_of_false nofun (by decide)
  · refine iff_of_false nofun fun hbad => ?_
    have hseven := (type_of_bad hbad).1
    omega
  · exact iff_of_true rfl (bad_of_type hkind)

/-- The loop refuses the input exactly where the items lead to a bad one. -/
theorem metadataLoop_badSequence_iff (position : Int)
    (htype : packetLength type = offset + 1) (hlength : data.length < 2 ^ 63)
    (hlow : -2 ^ 62 ≤ position) (hhigh : position < 2 ^ 63 + 2 ^ 62) :
    (∃ rounds, metadataLoop data type offset rounds (sizeT (position - offset)) =
        some .badSequence) ↔
      ∃ last header, Reaches (nextItem data) position last ∧ 0 ≤ last ∧
        data[last.toNat]? = some header ∧ 0xE0 ≤ header := by
  constructor
  · rintro ⟨rounds, hbad⟩
    induction rounds generalizing position with
    | zero => cases hbad
    | succ rounds ih =>
        cases hnext : nextItem data position with
        | some next =>
            have hbounds := bounds_of_nextItem hnext
            rw [metadataLoop_next htype hlength hnext] at hbad
            obtain ⟨last, header, hreach, hlast⟩ := ih next (by omega) (by omega) hbad
            exact ⟨last, header, .head hnext hreach, hlast⟩
        | none =>
            -- neither the byte before the buffer nor one behind it is refused
            have hpos : 0 ≤ position := by
              by_contra hneg
              rcases eq_or_ne position (-1) with rfl | hne
              · rw [metadataLoop_before htype hlength] at hbad
                cases hbad
              · obtain ⟨low, hagain⟩ := metadataLoop_beyond htype hlength hlow hhigh
                  (Or.inl (by omega))
                rw [hagain] at hbad
                cases hbad
            have hlt : position < data.length := by
              by_contra hout
              obtain ⟨low, hagain⟩ := metadataLoop_beyond htype hlength hlow hhigh
                (Or.inr (by omega))
              rw [hagain] at hbad
              cases hbad
            obtain ⟨header, hheader⟩ :=
              (metadataLoop_bad_iff htype hlength hpos hlt hnext rounds).mp hbad
            exact ⟨position, header, .refl, hpos, hheader⟩
  · rintro ⟨last, header, hreach, hlast, hheader, hbad⟩
    induction hreach using ReflTransGen.head_induction_on with
    | refl =>
        have hlt : last.toNat < data.length := (List.getElem?_eq_some_iff.mp hheader).1
        refine ⟨1, (metadataLoop_bad_iff htype hlength hlast (by omega)
          (nextItem_of_bad hlast hheader hbad) 0).mpr ⟨header, hheader, hbad⟩⟩
    | head hstep _ ih =>
        have hbounds := bounds_of_nextItem hstep
        obtain ⟨rounds, hrounds⟩ := ih (by omega) (by omega)
        exact ⟨rounds + 1, (metadataLoop_next htype hlength hstep rounds).trans hrounds⟩

end Loop

/-! ## Every input -/

variable {data : List Byte}

private theorem not_answers_badSequence (hstart : metadataStart data = none) :
    ¬ Answers data .badSequence := by
  rintro ⟨rounds, hanswer⟩
  cases data with
  | nil => cases hanswer
  | cons first rest =>
      cases htype : SVPacketType.ofByte first with
      | none =>
          rw [packetParsable_of_none htype] at hanswer
          cases hanswer
      | some type =>
          by_cases hlength : (first :: rest).length < packetLength type
          · rw [packetParsable_of_short htype hlength] at hanswer
            cases hanswer
          · rw [packetParsable_of_type htype hlength] at hanswer
            obtain ⟨hmetadata, hmob⟩ := type_of_metadataStart_none hstart htype hlength
            exact packetComplete_ne_badSequence hmetadata hmob rounds hanswer

/-- **What is refused**: an input whose first packet has a bad item, and nothing else. -/
theorem answers_badSequence_iff (hlength : data.length < 2 ^ 63) :
    Answers data .badSequence ↔ BadItem data := by
  cases hstart : metadataStart data with
  | none =>
      refine iff_of_false (not_answers_badSequence hstart) ?_
      rintro ⟨start, last, header, hsome, -⟩
      cases hstart.symm.trans hsome
  | some start =>
      obtain ⟨first, rest, type, offset, rfl, hfirst, hshort, rfl, htype, hsmall, hloop⟩ :=
        metadataStart_eq_some hstart
      have hzero : sizeT ((offset : Int) - offset) = 0 := by
        rw [Int.sub_self]
        rfl
      have hwalk := metadataLoop_badSequence_iff offset htype hlength (by omega) (by omega)
      have hcomplete : ∀ rounds, packetParsable rounds (first :: rest) =
          metadataLoop (first :: rest) type offset rounds 0 := by
        intro rounds
        rw [packetParsable_of_type hfirst hshort, hloop]
      rw [hzero] at hwalk
      simp only [Answers, hcomplete]
      rw [hwalk]
      constructor
      · rintro ⟨last, header, hreach, hlast⟩
        exact ⟨offset, last, header, hstart, hreach, hlast⟩
      · rintro ⟨start, last, header, hsome, hreach, hlast⟩
        cases hstart.symm.trans hsome
        exact ⟨last, header, hreach, hlast⟩

end Craftd.Protocol
