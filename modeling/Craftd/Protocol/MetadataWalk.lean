import Craftd.Library.Walk
import Craftd.Protocol.PacketLength
import Mathlib.Data.Int.Interval

/-!
# Where the metadata loop goes

The metadata loops of `SV_PacketParsable` go from one item to the next.  `nextItem`
is that step as a partial function on positions in the buffer: an integer, because
a string item with a negative length sends the loop backwards, as far as the byte
before the buffer.

`metadataLoop_start_iff` reduces the loops to walks along `nextItem`, and the main
result says exactly when `SV_PacketParsable` answers at all without looking outside
the buffer: every packet without metadata, and the ones whose items neither come
back to themselves nor start before the buffer.
-/

namespace Craftd.Protocol

open Craftd.Containers ByteReader PartialWalk Relation

/-! ## Items -/

/-- How far behind an item's header the next header is, for the length check. -/
def itemSize (data : List Byte) (position : Nat) (metatype : Byte) : Option Int :=
  match (metatype >>> 5).toNat with
  | 0 => some 2
  | 1 => some 3
  | 2 => some 5
  | 3 => some 5
  | 4 => if position + 3 ≤ data.length then some (3 + hostShort data (position + 1)) else none
  | 5 => some 5
  | 6 => some 13
  | _ => none

/-- The position of the item behind the one at `position`, if there is one there. -/
def nextItem (data : List Byte) (position : Int) : Option Int :=
  if position < 0 then none
  else
    match data[position.toNat]? with
    | none => none
    | some metatype =>
        if metatype = 127 then none
        else (itemSize data position.toNat metatype).map (position + ·)

/-- The loop ends with success at `position`. -/
def Terminator (data : List Byte) (position : Int) : Prop :=
  0 ≤ position ∧ data[position.toNat]? = some 127

/-- Where the items start, in a buffer that has reached a packet with metadata. -/
def metadataStart (data : List Byte) : Option Int :=
  match data with
  | [] => none
  | first :: _ =>
      match SVPacketType.ofByte first with
      | some .entityMetadata => if data.length < packetLength .entityMetadata then none else some 5
      | some .spawnMob => if data.length < packetLength .spawnMob then none else some 20
      | _ => none

variable {data : List Byte} {position next : Int}

private theorem hostShort_bounds (data : List Byte) (index : Nat) :
    -32768 ≤ hostShort data index ∧ hostShort data index < 32768 := by
  unfold hostShort
  have h := BitVec.toInt_lt (x := (data.getD (index + 1) 0 ++ data.getD index 0 : BitVec 16))
  have h' := BitVec.le_toInt (x := (data.getD (index + 1) 0 ++ data.getD index 0 : BitVec 16))
  omega

private theorem itemSize_bounds {index : Nat} {metatype : Byte} {size : Int}
    (h : itemSize data index metatype = some size) : -32765 ≤ size ∧ size < 32771 := by
  have hbounds := hostShort_bounds data (index + 1)
  unfold itemSize at h
  split at h
  all_goals first
    | cases h <;> omega
    | skip
  split at h <;> cases h
  omega

/-- An item that is followed by another one is in the buffer, and not far from it. -/
theorem bounds_of_nextItem (h : nextItem data position = some next) :
    0 ≤ position ∧ position < data.length ∧ position - 32765 ≤ next ∧ next < position + 32771 := by
  unfold nextItem at h
  split_ifs at h with hneg
  split at h
  · cases h
  next metatype hmetatype =>
    split_ifs at h
    obtain ⟨size, hsize, rfl⟩ := Option.map_eq_some_iff.mp h
    have hbounds := itemSize_bounds hsize
    have hlt : position.toNat < data.length := (List.getElem?_eq_some_iff.mp hmetatype).1
    omega

theorem Terminator.lt (h : Terminator data position) : position.toNat < data.length :=
  (List.getElem?_eq_some_iff.mp h.2).1

theorem nextItem_beyond {n : Nat} (h : data.length ≤ n) : nextItem data n = none := by
  unfold nextItem
  rw [if_neg (by omega), Int.toNat_natCast, List.getElem?_eq_none h]

theorem nextItem_of_terminator (h : Terminator data position) : nextItem data position = none := by
  unfold nextItem
  rw [if_neg (not_lt.mpr h.1), h.2]
  exact if_pos rfl

private theorem finite_nextItem (data : List Byte) : {p | (nextItem data p).isSome}.Finite := by
  refine (Set.finite_Ico (0 : Int) data.length).subset ?_
  intro p hp
  obtain ⟨q, hq⟩ := Option.isSome_iff_exists.mp hp
  exact ⟨(bounds_of_nextItem hq).1, (bounds_of_nextItem hq).2.1⟩

/-! ## The headers of a walk -/

/-- The walk from a position to another one steps over items with these header bytes. -/
inductive Walked (data : List Byte) : Int → List Byte → Int → Prop
  | stop (position : Int) : Walked data position [] position
  | item {position next last : Int} {header : Byte} {headers : List Byte} :
      data[position.toNat]? = some header → nextItem data position = some next →
      Walked data next headers last → Walked data position (header :: headers) last

private theorem exists_header_of_nextItem (h : nextItem data position = some next) :
    ∃ header, data[position.toNat]? = some header := by
  have hbounds := bounds_of_nextItem h
  exact ⟨_, List.getElem?_eq_getElem (by omega)⟩

theorem reaches_iff_walked {start last : Int} :
    Reaches (nextItem data) start last ↔ ∃ headers, Walked data start headers last := by
  constructor
  · intro hreach
    induction hreach using ReflTransGen.head_induction_on with
    | refl => exact ⟨[], .stop last⟩
    | head hstep _ ih =>
        obtain ⟨headers, hwalked⟩ := ih
        obtain ⟨header, hheader⟩ := exists_header_of_nextItem hstep
        exact ⟨header :: headers, .item hheader hstep hwalked⟩
  · rintro ⟨headers, hwalked⟩
    induction hwalked with
    | stop position => exact .refl
    | item _ hstep _ ih => exact .head hstep ih

theorem Walked.unique {start last last' : Int} {headers headers' : List Byte}
    (h : Walked data start headers last) (hend : nextItem data last = none)
    (h' : Walked data start headers' last') (hend' : nextItem data last' = none) :
    headers = headers' ∧ last = last' := by
  induction h generalizing headers' with
  | stop position =>
      cases h' with
      | stop => exact ⟨rfl, rfl⟩
      | item _ hstep _ => cases hend.symm.trans hstep
  | item hheader hstep _ ih =>
      cases h' with
      | stop => cases hend'.symm.trans hstep
      | item hheader' hstep' hrest =>
          cases hstep.symm.trans hstep'
          cases hheader.symm.trans hheader'
          obtain ⟨rfl, rfl⟩ := ih hend hrest
          exact ⟨rfl, rfl⟩

/-- The headers of a walk are the bytes at the positions it meets before its end. -/
theorem Walked.mem_iff {start last : Int} {headers : List Byte} {header : Byte}
    (hwalked : Walked data start headers last) (hlast : Terminator data last)
    (hheader : header ≠ 127) :
    header ∈ headers ↔ ∃ item, Reaches (nextItem data) start item ∧
      Reaches (nextItem data) item last ∧ 0 ≤ item ∧ data[item.toNat]? = some header := by
  induction hwalked with
  | stop position =>
      refine iff_of_false List.not_mem_nil ?_
      rintro ⟨item, hreach, -, -, hitem⟩
      rcases ReflTransGen.cases_head hreach with rfl | ⟨next, hnext, -⟩
      · cases hitem.symm.trans hlast.2
        exact hheader rfl
      · cases (nextItem_of_terminator hlast).symm.trans hnext
  | @item position next last first headers hfirst hstep hrest ih =>
      have hpos := (bounds_of_nextItem hstep).1
      rw [List.mem_cons, ih hlast]
      constructor
      · rintro (rfl | ⟨item, hto, hfrom, hitem⟩)
        · exact ⟨position, .refl, .head hstep (reaches_iff_walked.mpr ⟨_, hrest⟩), hpos, hfirst⟩
        · exact ⟨item, .head hstep hto, hfrom, hitem⟩
      · rintro ⟨item, hto, hfrom, hnonneg, hitem⟩
        rcases ReflTransGen.cases_head hto with rfl | ⟨second, hsecond, hto⟩
        · exact .inl (Option.some.inj (hitem.symm.trans hfirst))
        · cases hstep.symm.trans hsecond
          exact .inr ⟨item, hto, hfrom, hnonneg, hitem⟩

/-! ## The loop at a position -/

section Loop

variable {type : SVPacketType} {offset : Nat}

/-- The loop's variable at a position, seen from the start of the buffer. -/
theorem sizeT_add_sizeT (offset : Nat) (position : Int) :
    sizeT (offset + sizeT (position - offset)) = sizeT position := by
  unfold sizeT
  omega

theorem sizeT_of_nonneg (hpos : 0 ≤ position) (hlt : position < 2 ^ 63) :
    sizeT position = position.toNat := by
  unfold sizeT
  omega

theorem low_eq (htype : packetLength type = offset + 1) (position : Int) :
    sizeT (packetLength type + sizeT (position - offset)) = sizeT (position + 1) := by
  rw [htype]
  unfold sizeT
  omega

theorem metadataLoop_next (htype : packetLength type = offset + 1)
    (hlength : data.length < 2 ^ 63) (h : nextItem data position = some next) (rounds : Nat) :
    metadataLoop data type offset (rounds + 1) (sizeT (position - offset)) =
      metadataLoop data type offset rounds (sizeT (next - offset)) := by
  obtain ⟨hpos, hlt, -, -⟩ := bounds_of_nextItem h
  have hlow : ¬ data.length < sizeT (position + 1) := by
    rw [sizeT_of_nonneg (by omega) (by omega)]
    omega
  have hstep : ∀ size : Int, position + size = next →
      sizeT (sizeT (position - offset) + size) = sizeT (next - offset) := by
    rintro size rfl
    unfold sizeT
    omega
  unfold nextItem at h
  rw [if_neg (by omega)] at h
  rw [metadataLoop, low_eq htype, if_neg hlow, sizeT_add_sizeT, sizeT_of_nonneg hpos (by omega)]
  cases hmetatype : data[position.toNat]? with
  | none =>
      rw [hmetatype] at h
      cases h
  | some metatype =>
      rw [hmetatype] at h
      dsimp only at h ⊢
      by_cases hend : metatype = 127
      · rw [if_pos hend] at h
        cases h
      · rw [if_neg hend] at h ⊢
        obtain ⟨size, hsize, hnext⟩ := Option.map_eq_some_iff.mp h
        unfold itemSize at hsize
        generalize (metatype >>> 5).toNat = kind at hsize ⊢
        rcases kind with _ | _ | _ | _ | _ | _ | _ | kind
        case succ.succ.succ.succ.zero =>
          -- a string: the length behind the header is added as it stands
          split_ifs at hsize with hfits
          have hlow' :
              ¬ data.length < sizeT (packetLength type + sizeT (position - offset) + 2) := by
            rw [htype]
            unfold sizeT
            omega
          have hindex : sizeT (offset + sizeT (position - offset) + 1) = position.toNat + 1 := by
            unfold sizeT
            omega
          rw [if_neg hlow', hindex, if_pos (by omega)]
          cases hsize
          rw [← hstep _ hnext]
          exact congrArg (fun value => metadataLoop data type offset rounds (sizeT value))
            (by omega)
        case succ.succ.succ.succ.succ.succ.succ => cases hsize
        all_goals
          cases hsize
          rw [← hstep _ hnext]
          congr 1

/-- The round at an item that no item follows: the end of the metadata, a string whose length has
not arrived, or a bad item. -/
theorem metadataLoop_stops (htype : packetLength type = offset + 1)
    (hlength : data.length < 2 ^ 63) (hpos : 0 ≤ position) (hlt : position < data.length)
    (h : nextItem data position = none) :
    ∃ header answer, data[position.toNat]? = some header ∧
      (∀ rounds, metadataLoop data type offset (rounds + 1) (sizeT (position - offset)) =
        some answer) ∧
      (header = 127 ∧ answer = .parsable ∨
        header ≠ 127 ∧ (header >>> 5).toNat = 4 ∧
          answer = .again (sizeT (packetLength type + sizeT (position - offset) + 2)) ∨
        header ≠ 127 ∧ (header >>> 5).toNat = 7 ∧ answer = .badSequence) := by
  have hlow : ¬ data.length < sizeT (position + 1) := by
    rw [sizeT_of_nonneg (by omega) (by omega)]
    omega
  obtain ⟨metatype, hmetatype⟩ : ∃ metatype, data[position.toNat]? = some metatype :=
    ⟨_, List.getElem?_eq_getElem (by omega)⟩
  refine ⟨metatype, ?_⟩
  unfold nextItem at h
  rw [if_neg (by omega), hmetatype] at h
  simp only [metadataLoop, low_eq htype, if_neg hlow, sizeT_add_sizeT,
    sizeT_of_nonneg hpos (by omega : position < 2 ^ 63), hmetatype, true_and]
  dsimp only at h
  by_cases hend : metatype = 127
  · exact ⟨.parsable, fun _ => if_pos hend, .inl ⟨hend, rfl⟩⟩
  · rw [if_neg hend, Option.map_eq_none_iff] at h
    simp only [if_neg hend]
    have hkind : (metatype >>> 5).toNat < 8 := by
      rw [BitVec.toNat_ushiftRight, Nat.shiftRight_eq_div_pow]
      have := metatype.isLt
      omega
    unfold itemSize at h
    generalize (metatype >>> 5).toNat = kind at h hkind ⊢
    rcases kind with _ | _ | _ | _ | _ | _ | _ | kind
    case succ.succ.succ.succ.zero =>
      -- a string whose length has not arrived
      split_ifs at h with hfits
      have hcheck : data.length < sizeT (packetLength type + sizeT (position - offset) + 2) := by
        rw [htype]
        unfold sizeT
        omega
      exact ⟨_, fun _ => if_pos hcheck, .inr (.inl ⟨hend, rfl, rfl⟩)⟩
    case succ.succ.succ.succ.succ.succ.succ =>
      exact ⟨_, fun _ => rfl, .inr (.inr ⟨hend, by omega, rfl⟩)⟩
    all_goals cases h

/-- The round at an item that no item follows answers without a look outside. -/
theorem metadataLoop_last (htype : packetLength type = offset + 1)
    (hlength : data.length < 2 ^ 63) (hpos : 0 ≤ position) (hlt : position < data.length)
    (h : nextItem data position = none) :
    ∃ answer, answer ≠ .outside ∧ (answer = .parsable ↔ data[position.toNat]? = some 127) ∧
      ∀ rounds, metadataLoop data type offset (rounds + 1) (sizeT (position - offset)) =
        some answer := by
  obtain ⟨header, answer, hheader, hround, hcases⟩ :=
    metadataLoop_stops htype hlength hpos hlt h
  refine ⟨answer, ?_⟩
  rw [hheader, Option.some.injEq]
  rcases hcases with ⟨hend, rfl⟩ | ⟨hend, -, rfl⟩ | ⟨hend, -, rfl⟩
  · exact ⟨by decide, iff_of_true rfl hend, hround⟩
  · exact ⟨nofun, iff_of_false nofun hend, hround⟩
  · exact ⟨nofun, iff_of_false nofun hend, hround⟩

/-- Before the buffer the loop reads a byte that is not there. -/
theorem metadataLoop_before (htype : packetLength type = offset + 1)
    (hlength : data.length < 2 ^ 63) (rounds : Nat) :
    metadataLoop data type offset (rounds + 1) (sizeT (-1 - offset)) = some .outside := by
  have hlow : ¬ data.length < sizeT (-1 + 1) := Nat.not_lt_zero _
  have hnone : data[sizeT (-1)]? = none := by
    rw [List.getElem?_eq_none_iff]
    have h : sizeT (-1) = 2 ^ 64 - 1 := by decide
    omega
  rw [metadataLoop, low_eq htype, if_neg hlow, sizeT_add_sizeT, hnone]

/-- Where there is nothing left to read the loop asks for more. -/
theorem metadataLoop_beyond (htype : packetLength type = offset + 1)
    (hlength : data.length < 2 ^ 63) (hlow : -2 ^ 62 ≤ position)
    (hhigh : position < 2 ^ 63 + 2 ^ 62) (hout : position < -1 ∨ data.length ≤ position) :
    ∃ low, ∀ rounds, metadataLoop data type offset (rounds + 1) (sizeT (position - offset)) =
      some (.again low) := by
  have hcheck : data.length < sizeT (position + 1) := by
    unfold sizeT
    omega
  refine ⟨sizeT (position + 1), fun rounds => ?_⟩
  rw [metadataLoop, low_eq htype, if_pos hcheck]

/-- From a position near the buffer, the loop answers without a look outside exactly when
the walk along the items ends and does not meet the byte before the buffer. -/
theorem metadataLoop_answers_iff (htype : packetLength type = offset + 1)
    (hlength : data.length < 2 ^ 63) (hlow : -2 ^ 62 ≤ position)
    (hhigh : position < 2 ^ 63 + 2 ^ 62) :
    (∃ rounds answer, metadataLoop data type offset rounds (sizeT (position - offset)) =
        some answer ∧ answer ≠ .outside) ↔
      Ends (nextItem data) position ∧ ∀ p, Reaches (nextItem data) position p → p ≠ -1 := by
  constructor
  · rintro ⟨rounds, answer, hanswer, houtside⟩
    induction rounds generalizing position with
    | zero => cases hanswer
    | succ rounds ih =>
        cases hnext : nextItem data position with
        | some next =>
            -- an item follows: the walk goes on there with one round less
            have hbounds := bounds_of_nextItem hnext
            rw [metadataLoop_next htype hlength hnext] at hanswer
            obtain ⟨hends, hbefore⟩ := ih (by omega) (by omega) hanswer
            refine ⟨(ends_of_follows hnext).mpr hends, fun p hreach => ?_⟩
            rcases ReflTransGen.cases_head hreach with rfl | ⟨q, hq, hrest⟩
            · omega
            · cases hnext.symm.trans hq
              exact hbefore p hrest
        | none =>
            refine ⟨⟨1, by rw [iterate, hnext]; rfl⟩, fun p hreach => ?_⟩
            -- nothing follows, and the walk is not before the buffer
            rcases ReflTransGen.cases_head hreach with rfl | ⟨q, hq, -⟩
            · rintro rfl
              rw [metadataLoop_before htype hlength] at hanswer
              exact houtside (Option.some.inj hanswer).symm
            · cases hnext.symm.trans hq
  · rintro ⟨⟨steps, hends⟩, hbefore⟩
    induction steps generalizing position with
    | zero => cases hends
    | succ steps ih =>
        cases hnext : nextItem data position with
        | some next =>
            have hbounds := bounds_of_nextItem hnext
            rw [iterate, hnext, Option.bind_some] at hends
            obtain ⟨rounds, answer, hanswer, houtside⟩ := ih (by omega) (by omega)
              (fun p hreach => hbefore p (.head hnext hreach)) hends
            refine ⟨rounds + 1, answer, ?_, houtside⟩
            exact (metadataLoop_next htype hlength hnext rounds).trans hanswer
        | none =>
            -- the walk ends here: in the buffer with an answer, behind it with a request for more
            have hstart : position ≠ -1 := hbefore position .refl
            by_cases hin : 0 ≤ position ∧ position < data.length
            · obtain ⟨answer, houtside, -, hround⟩ :=
                metadataLoop_last htype hlength hin.1 hin.2 hnext
              exact ⟨1, answer, hround 0, houtside⟩
            · obtain ⟨low, hround⟩ :=
                metadataLoop_beyond htype hlength hlow hhigh (by omega)
              exact ⟨1, .again low, hround 0, fun houtside => by cases houtside⟩

/-- The loop accepts exactly when the items lead to a terminator. -/
theorem metadataLoop_parsable_iff (htype : packetLength type = offset + 1)
    (hlength : data.length < 2 ^ 63) (hlow : -2 ^ 62 ≤ position)
    (hhigh : position < 2 ^ 63 + 2 ^ 62) :
    (∃ rounds, metadataLoop data type offset rounds (sizeT (position - offset)) =
        some .parsable) ↔
      ∃ last, Reaches (nextItem data) position last ∧ Terminator data last := by
  constructor
  · rintro ⟨rounds, hanswer⟩
    induction rounds generalizing position with
    | zero => cases hanswer
    | succ rounds ih =>
        cases hnext : nextItem data position with
        | some next =>
            have hbounds := bounds_of_nextItem hnext
            rw [metadataLoop_next htype hlength hnext] at hanswer
            obtain ⟨last, hreach, hlast⟩ := ih (by omega) (by omega) hanswer
            exact ⟨last, .head hnext hreach, hlast⟩
        | none =>
            -- the walk ends here, so the answer is that of the last round
            by_cases hin : 0 ≤ position ∧ position < data.length
            · obtain ⟨answer, -, hparsable, hround⟩ :=
                metadataLoop_last htype hlength hin.1 hin.2 hnext
              rw [hround] at hanswer
              exact ⟨position, .refl, hin.1, hparsable.mp (Option.some.inj hanswer)⟩
            · by_cases hbefore : position = -1
              · subst hbefore
                rw [metadataLoop_before htype hlength] at hanswer
                cases hanswer
              · obtain ⟨low, hround⟩ := metadataLoop_beyond htype hlength hlow hhigh (by omega)
                rw [hround] at hanswer
                cases hanswer
  · rintro ⟨last, hreach, hlast⟩
    induction hreach using ReflTransGen.head_induction_on with
    | refl =>
        -- at the terminator one round accepts
        have hlt := hlast.lt
        obtain ⟨answer, -, hparsable, hround⟩ := metadataLoop_last htype hlength hlast.1
          (by omega) (nextItem_of_terminator hlast)
        exact ⟨1, by rw [hround, hparsable.mpr hlast.2]⟩
    | head hstep _ ih =>
        have hbounds := bounds_of_nextItem hstep
        obtain ⟨rounds, hanswer⟩ := ih (by omega) (by omega)
        exact ⟨rounds + 1, (metadataLoop_next htype hlength hstep rounds).trans hanswer⟩

end Loop

/-! ## The packets without metadata -/

theorem check_ne_outside (data : List Byte) (type : SVPacketType) (extra : Nat) :
    check data type extra ≠ .outside := by
  unfold check
  split_ifs <;> nofun

theorem peek_ne_outside {index n : Nat} {next : Nat → Framing} (hfits : index + n ≤ data.length)
    (hnext : ∀ value, next value ≠ .outside) : peek data index n next ≠ .outside := by
  unfold peek
  rw [if_pos hfits]
  exact hnext _

private theorem windowItemsLoop_ne_outside (items extra : Nat) :
    windowItemsLoop data items extra ≠ .outside := by
  induction items generalizing extra with
  | zero => exact check_ne_outside data _ extra
  | succ items ih =>
      rw [windowItemsLoop]
      split_ifs with hcheck
      · nofun
      · refine peek_ne_outside ?_ fun id => ih _
        rw [packetLength] at hcheck
        omega

private theorem updateSignTexts_ne_outside {texts offset extra : Nat}
    (hoffset : texts * 2 + offset = 17)
    (hfits : 19 + extra ≤ data.length) : updateSignTexts data texts offset extra ≠ .outside := by
  induction texts generalizing offset extra with
  | zero =>
      rw [updateSignTexts]
      exact peek_ne_outside (by omega) fun length => check_ne_outside data _ _
  | succ texts ih =>
      rw [updateSignTexts]
      refine peek_ne_outside (by omega) fun length => ?_
      split_ifs with hcheck
      · nofun
      · rw [packetLength] at hcheck
        exact ih (by omega) (by omega)

/-- Outside the metadata loops, a buffer as long as the table says is read inside only. -/
theorem packetComplete_answers {type : SVPacketType} (hlength : packetLength type ≤ data.length)
    (hmetadata : type ≠ .entityMetadata) (hmob : type ≠ .spawnMob) (rounds : Nat) :
    ∃ answer, packetComplete rounds data type = some answer ∧ answer ≠ .outside := by
  cases type
  case entityMetadata => exact absurd rfl hmetadata
  case spawnMob => exact absurd rfl hmob
  case windowItems =>
    exact ⟨_, rfl, peek_ne_outside hlength fun count =>
      windowItemsLoop_ne_outside _ _⟩
  case updateSign => exact ⟨_, rfl, updateSignTexts_ne_outside rfl hlength⟩
  all_goals
    rw [packetLength] at hlength
    refine ⟨_, rfl, ?_⟩
    first
      | exact peek_ne_outside (by omega) fun _ => check_ne_outside data _ _
      | decide

/-! ## Every packet -/

theorem metadataLoop_succ {type : SVPacketType} {offset rounds extra : Nat} {answer : Framing}
    (h : metadataLoop data type offset rounds extra = some answer) :
    metadataLoop data type offset (rounds + 1) extra = some answer := by
  induction rounds generalizing extra with
  | zero => cases h
  | succ rounds ih =>
      rw [metadataLoop] at h ⊢
      dsimp only at h ⊢
      by_cases hcheck : data.length < sizeT (packetLength type + extra)
      · rw [if_pos hcheck] at h ⊢
        exact h
      · rw [if_neg hcheck] at h ⊢
        cases hget : data[sizeT (offset + extra)]? with
        | none =>
            rw [hget] at h
            exact h
        | some metatype =>
            rw [hget] at h
            dsimp only at h ⊢
            by_cases hend : metatype = 127
            · rw [if_pos hend] at h ⊢
              exact h
            · rw [if_neg hend] at h ⊢
              generalize (metatype >>> 5).toNat = kind at h ⊢
              rcases kind with _ | _ | _ | _ | _ | _ | _ | kind
              case succ.succ.succ.succ.zero =>
                split_ifs at h ⊢
                · exact h
                · exact ih h
                · exact h
              case succ.succ.succ.succ.succ.succ.succ => exact h
              all_goals exact ih h

private theorem packetParsable_succ {rounds : Nat} {answer : Framing}
    (h : packetParsable rounds data = some answer) :
    packetParsable (rounds + 1) data = some answer := by
  cases data with
  | nil => exact h
  | cons first rest =>
      cases htype : SVPacketType.ofByte first with
      | none =>
          rw [packetParsable_of_none htype] at h ⊢
          exact h
      | some type =>
          by_cases hlength : (first :: rest).length < packetLength type
          · rw [packetParsable_of_short htype hlength] at h ⊢
            exact h
          · rw [packetParsable_of_type htype hlength] at h ⊢
            cases type with
            | spawnMob => exact metadataLoop_succ h
            | entityMetadata => exact metadataLoop_succ h
            | _ => exact h

theorem answers_unique {answer answer' : Framing} (h : Answers data answer)
    (h' : Answers data answer') : answer = answer' := by
  have hmono : ∀ {rounds : Nat} {answer : Framing} (k : Nat),
      packetParsable rounds data = some answer →
        packetParsable (rounds + k) data = some answer := by
    intro rounds answer k hanswer
    induction k with
    | zero => exact hanswer
    | succ k ih => exact packetParsable_succ ih
  obtain ⟨rounds, hanswer⟩ := h
  obtain ⟨rounds', hanswer'⟩ := h'
  have hboth := hmono rounds' hanswer
  rw [Nat.add_comm, hmono rounds hanswer'] at hboth
  exact (Option.some.inj hboth).symm

theorem metadataStart_eq_some {start : Int} (h : metadataStart data = some start) :
    ∃ first rest type, ∃ offset : Nat, data = first :: rest ∧
      SVPacketType.ofByte first = some type ∧ ¬ data.length < packetLength type ∧
      start = offset ∧ packetLength type = offset + 1 ∧ offset ≤ 20 ∧
      ∀ rounds, packetComplete rounds data type = metadataLoop data type offset rounds 0 := by
  cases data with
  | nil => cases h
  | cons first rest =>
      unfold metadataStart at h
      dsimp only at h
      split at h
      next hfirst =>
        split_ifs at h with hlength
        cases h
        exact ⟨first, rest, .entityMetadata, 5, rfl, hfirst, hlength, rfl, rfl, by decide,
          fun _ => rfl⟩
      next hfirst =>
        split_ifs at h with hlength
        cases h
        exact ⟨first, rest, .spawnMob, 20, rfl, hfirst, hlength, rfl, rfl, by decide,
          fun _ => rfl⟩
      · cases h

theorem answers_of_metadataStart {start : Int} (hlength : data.length < 2 ^ 63)
    (h : metadataStart data = some start) :
    (∃ answer, Answers data answer ∧ answer ≠ .outside) ↔
      Ends (nextItem data) start ∧ ∀ p, Reaches (nextItem data) start p → p ≠ -1 := by
  obtain ⟨first, rest, type, offset, rfl, hfirst, hshort, rfl, htype, hsmall, hloop⟩ :=
    metadataStart_eq_some h
  have hzero : sizeT ((offset : Int) - offset) = 0 := by
    rw [Int.sub_self]
    rfl
  rw [← metadataLoop_answers_iff htype hlength (by omega) (by omega), hzero]
  unfold Answers
  constructor
  · rintro ⟨answer, ⟨rounds, hanswer⟩, houtside⟩
    rw [packetParsable_of_type hfirst hshort, hloop] at hanswer
    exact ⟨rounds, answer, hanswer, houtside⟩
  · rintro ⟨rounds, answer, hanswer, houtside⟩
    refine ⟨answer, ⟨rounds, ?_⟩, houtside⟩
    rw [packetParsable_of_type hfirst hshort, hloop, hanswer]

/-- A packet that has reached its length in the table and has no items holds no metadata. -/
theorem type_of_metadataStart_none {first : Byte} {rest : List Byte} {type : SVPacketType}
    (h : metadataStart (first :: rest) = none) (htype : SVPacketType.ofByte first = some type)
    (hlength : ¬ (first :: rest).length < packetLength type) :
    type ≠ .entityMetadata ∧ type ≠ .spawnMob := by
  constructor
  all_goals
    rintro rfl
    simp only [metadataStart, htype] at h
    rw [if_neg hlength] at h
    cases h

/-- A packet without metadata, or one whose items have not started to arrive. -/
theorem answers_of_metadataStart_none (h : metadataStart data = none) :
    ∃ answer, Answers data answer ∧ answer ≠ .outside := by
  cases data with
  | nil => exact ⟨_, ⟨0, rfl⟩, nofun⟩
  | cons first rest =>
      cases htype : SVPacketType.ofByte first with
      | none => exact ⟨.parsable, ⟨0, packetParsable_of_none htype 0 rest⟩, nofun⟩
      | some type =>
          by_cases hlength : (first :: rest).length < packetLength type
          · exact ⟨_, ⟨0, packetParsable_of_short htype hlength 0⟩, nofun⟩
          · have hother := type_of_metadataStart_none h htype hlength
            obtain ⟨answer, hanswer, houtside⟩ :=
              packetComplete_answers (not_lt.mp hlength) hother.1 hother.2 0
            exact ⟨answer, ⟨0, (packetParsable_of_type htype hlength 0).trans hanswer⟩, houtside⟩

/-- **When the length check answers.**  `SV_PacketParsable` returns, and has read inside the
buffer only, exactly when the buffer holds no packet with metadata, or one whose items, each
followed by the next one, neither come back to an item nor lead to the byte before the
buffer. -/
theorem parsable_answers_inside_iff (buffer : InputBuffer) :
    (∃ answer, Answers buffer.data answer ∧ answer ≠ .outside) ↔
      ∀ start, metadataStart buffer.data = some start →
        ∀ p, Reaches (nextItem buffer.data) start p →
          p ≠ -1 ∧ ¬ TransGen (Follows (nextItem buffer.data)) p p := by
  cases hstart : metadataStart buffer.data with
  | none => exact iff_of_true (answers_of_metadataStart_none hstart) nofun
  | some start =>
      rw [answers_of_metadataStart buffer.hlength hstart, ends_iff_acyclic (finite_nextItem _)]
      constructor
      · rintro ⟨hacyclic, hbefore⟩ _ hsome p hreach
        cases hsome
        exact ⟨hbefore p hreach, hacyclic p hreach⟩
      · intro h
        exact ⟨fun p hreach => (h start rfl p hreach).2, fun p hreach => (h start rfl p hreach).1⟩

/-- A string item of length -3 leads back to itself, and the check never returns. -/
theorem parsable_never_answers :
    ¬ ∃ answer, Answers [0x28, 0, 0, 0, 0, 0x80, 0xFD, 0xFF] answer ∧ answer ≠ .outside := by
  have hitem : nextItem [0x28, 0, 0, 0, 0, 0x80, 0xFD, 0xFF] 5 = some 5 := by decide
  rw [answers_of_metadataStart (by decide) (rfl : metadataStart _ = some 5)]
  exact fun h => not_ends_of_cycle (.single hitem) h.1

end Craftd.Protocol
