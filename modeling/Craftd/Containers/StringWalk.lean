import Craftd.Containers.String
import Craftd.Library.Walk

/-!
# Counting the characters of any bytes

A translation of the loops of `CD_UTF8_strlen` and `CD_UTF8_strnlen` over memory,
where bytes stand behind the terminator too.  Both loops read `data[i]` before
anything else, so the places a walk meets are the bytes it reads.

A byte that leads no character keeps the walk where it is, and a character that is
cut off by the terminator takes it beyond.  `CutUpTo` says that neither happens
below a bound: the bytes are cut into characters at least as far as the bound, and
`Bounded` walks are exactly those.
-/

namespace Craftd.Containers

open PartialWalk Relation

/-- The loop of both length functions: at `(i, result)` it reads `data[i]`, and goes on
while `goes` says so. -/
def utf8CountNext (data : ℕ → Byte) (goes : ℕ → Bool) : ℕ × ℕ → Option (ℕ × ℕ)
  | (i, result) => if goes i then some (i + utf8NextCharLength (data i), result + 1) else none

/-- A round of `CD_UTF8_strlen`. -/
def utf8StrlenNext (data : ℕ → Byte) : ℕ × ℕ → Option (ℕ × ℕ) :=
  utf8CountNext data fun i => data i ≠ 0

/-- A round of `CD_UTF8_strnlen`. -/
def utf8StrnlenNext (data : ℕ → Byte) (limit : ℕ) : ℕ × ℕ → Option (ℕ × ℕ) :=
  utf8CountNext data fun i => data i ≠ 0 ∧ i < limit

/-- The memory from `data` on holds `bytes` and a terminator. -/
structure Terminated (data : ℕ → Byte) (bytes : List Byte) : Prop where
  nul : 0 ∉ bytes
  terminator : data bytes.length = 0
  content : ∀ i (hi : i < bytes.length), data i = bytes[i]

/-- A walk that ends, and reads nothing beyond `last`. -/
def BoundedFrom (next : ℕ × ℕ → Option (ℕ × ℕ)) (last : ℕ) (place : ℕ × ℕ) : Prop :=
  Ends next place ∧ ∀ other, Reaches next place other → other.1 ≤ last

/-- The walk of a call. -/
def Bounded (next : ℕ × ℕ → Option (ℕ × ℕ)) (last : ℕ) : Prop :=
  BoundedFrom next last (0, 0)

/-- The bytes are cut into characters at least as far as the bound. -/
def CutUpTo (bytes : List Byte) (bound : ℕ) : Prop :=
  ∃ (chars : List (List Byte)) (rest : List Byte), bytes = chars.flatten ++ rest ∧
    (∀ ch ∈ chars, IsChar ch) ∧ bound ≤ chars.flatten.length

/-! ## One character -/

theorem CutUpTo.zero (bytes : List Byte) : CutUpTo bytes 0 :=
  ⟨[], bytes, rfl, by simp, Nat.le_refl _⟩

/-- What is cut as far as a bound starts with a character that is all there. -/
theorem cutUpTo_cons {byte : Byte} {tail : List Byte} {bound : ℕ} (hbyte : byte ≠ 0)
    (hbound : 0 < bound) :
    CutUpTo (byte :: tail) bound ↔
      0 < utf8NextCharLength byte ∧ utf8NextCharLength byte ≤ tail.length + 1 ∧
        CutUpTo ((byte :: tail).drop (utf8NextCharLength byte))
          (bound - utf8NextCharLength byte) := by
  constructor
  · rintro ⟨chars, rest, hbytes, hchars, hle⟩
    cases chars with
    | nil => exact absurd hle (Nat.not_le.mpr hbound)
    | cons ch chars =>
        obtain ⟨first, others, rfl, -, hlength⟩ := (hchars ch List.mem_cons_self).exists_cons
        rw [List.flatten_cons, List.append_assoc, List.cons_append] at hbytes
        obtain ⟨rfl, htail⟩ := List.cons.inj hbytes
        rw [List.flatten_cons, List.length_append, List.length_cons] at hle
        refine ⟨by omega, ?_, chars, rest, ?_, ?_, by omega⟩
        · rw [hlength, htail, List.length_append]
          omega
        · rw [hlength, List.drop_succ_cons, htail, List.drop_left]
        · intro other hmem
          exact hchars other (List.mem_cons_of_mem _ hmem)
  · rintro ⟨hpos, hlength, chars, rest, hbytes, hchars, hle⟩
    have htake : ((byte :: tail).take (utf8NextCharLength byte)).length =
        utf8NextCharLength byte := by
      rw [List.length_take, List.length_cons]
      omega
    refine ⟨(byte :: tail).take (utf8NextCharLength byte) :: chars, rest, ?_, ?_, ?_⟩
    · rw [List.flatten_cons, List.append_assoc, ← hbytes, List.take_append_drop]
    · intro ch hmem
      rcases List.mem_cons.mp hmem with rfl | hlater
      · obtain ⟨skip, hskip⟩ := Nat.exists_eq_add_of_le' hpos
        rw [hskip] at htake ⊢
        exact ⟨hbyte, hskip.trans htake.symm⟩
      · exact hchars ch hlater
    · rw [List.flatten_cons, List.length_append, htake]
      omega

/-! ## The walk -/

section Walk

variable {data : ℕ → Byte} {goes : ℕ → Bool} {last i result : ℕ}

theorem utf8CountNext_stop (hstop : goes i = false) :
    utf8CountNext data goes (i, result) = none := by
  simp [utf8CountNext, hstop]

theorem utf8CountNext_goes (hgoes : goes i = true) :
    Follows (utf8CountNext data goes) (i, result)
      (i + utf8NextCharLength (data i), result + 1) := by
  simp [Follows, utf8CountNext, hgoes]

private theorem boundedFrom_of_stop (hstop : goes i = false) (hi : i ≤ last) :
    BoundedFrom (utf8CountNext data goes) last (i, result) := by
  have hnone : utf8CountNext data goes (i, result) = none := utf8CountNext_stop hstop
  refine ⟨⟨1, by rw [iterate, hnone]; rfl⟩, ?_⟩
  intro other hreach
  rcases ReflTransGen.cases_head hreach with rfl | ⟨next, hnext, -⟩
  · exact hi
  · cases hnone.symm.trans hnext

private theorem boundedFrom_of_goes (hgoes : goes i = true) (hi : i ≤ last) :
    BoundedFrom (utf8CountNext data goes) last (i, result) ↔
      BoundedFrom (utf8CountNext data goes) last
        (i + utf8NextCharLength (data i), result + 1) := by
  have hstep : Follows (utf8CountNext data goes) (i, result) _ := utf8CountNext_goes hgoes
  apply and_congr (ends_of_follows hstep)
  constructor
  · intro hall other hreach
    exact hall other (.head hstep hreach)
  · intro hall other hreach
    rcases ReflTransGen.cases_head hreach with rfl | ⟨next, hnext, hrest⟩
    · exact hi
    · cases hstep.symm.trans hnext
      exact hall other hrest

/-- On a byte that leads no character the walk stays for ever. -/
theorem not_ends_of_stuck (hgoes : goes i = true) (hlength : utf8NextCharLength (data i) = 0) :
    ¬ Ends (utf8CountNext data goes) (i, result) := by
  rintro ⟨n, hn⟩
  induction n generalizing result with
  | zero => cases hn
  | succ n ih =>
      have hstep : Follows (utf8CountNext data goes) (i, result) _ := utf8CountNext_goes hgoes
      rw [iterate, hstep, hlength, Option.bind_some] at hn
      exact ih hn

/-- **Where a walk goes.**  Below a bound that is not behind the terminator it goes on, so
it is bounded if and only if the bytes are cut into characters up to there. -/
theorem boundedFrom_iff {bytes : List Byte} (hdata : Terminated data bytes) {bound : ℕ}
    (hbound : bound ≤ bytes.length) (hgoes : ∀ i ≤ bytes.length, goes i = true ↔ i < bound)
    (hi : i ≤ bytes.length) :
    BoundedFrom (utf8CountNext data goes) bytes.length (i, result) ↔
      CutUpTo (bytes.drop i) (bound - i) := by
  induction hremaining : bytes.length - i using Nat.strong_induction_on generalizing i result with
  | _ remaining ih =>
      by_cases hlt : i < bound
      · have hgo := (hgoes i hi).mpr hlt
        have hi' : i < bytes.length := Nat.lt_of_lt_of_le hlt hbound
        have hbyte : data i = bytes[i] := hdata.content i hi'
        have hne : bytes[i] ≠ 0 := fun hzero => hdata.nul (hzero ▸ List.getElem_mem hi')
        rw [List.drop_eq_getElem_cons hi', cutUpTo_cons hne (Nat.sub_pos_of_lt hlt),
          ← List.drop_eq_getElem_cons hi', List.drop_drop, Nat.sub_sub, ← hbyte]
        by_cases hzero : utf8NextCharLength (data i) = 0
        · refine iff_of_false (fun hsafe => not_ends_of_stuck hgo hzero hsafe.1) ?_
          rintro ⟨hpos, -⟩
          exact absurd hzero (Nat.pos_iff_ne_zero.mp hpos)
        · rw [boundedFrom_of_goes hgo hi]
          by_cases hover : i + utf8NextCharLength (data i) ≤ bytes.length
          · rw [ih _ (by omega) hover rfl, List.length_drop]
            have hpos := Nat.pos_of_ne_zero hzero
            constructor
            · intro hcut
              exact ⟨hpos, by omega, hcut⟩
            · rintro ⟨-, -, hcut⟩
              exact hcut
          · -- the next byte read is behind the terminator
            refine iff_of_false (fun hsafe => hover (hsafe.2 _ .refl)) ?_
            rintro ⟨-, hlength, -⟩
            rw [List.length_drop] at hlength
            omega
      · have hstop : goes i = false := by
          apply Bool.eq_false_iff.mpr
          intro hgo
          exact hlt ((hgoes i hi).mp hgo)
        rw [Nat.sub_eq_zero_of_le (Nat.not_lt.mp hlt)]
        exact iff_of_true (boundedFrom_of_stop hstop hi) (CutUpTo.zero _)

/-! ### The walk of `CD_UTF8_strnlen` -/

variable {limit : ℕ}

private theorem utf8StrnlenNext_goes (hbyte : data i ≠ 0) (hi : i < limit) :
    Follows (utf8StrnlenNext data limit) (i, result)
      (i + utf8NextCharLength (data i), result + 1) :=
  utf8CountNext_goes (decide_eq_true ⟨hbyte, hi⟩)

private theorem utf8StrnlenNext_stop (hstop : ¬ (data i ≠ 0 ∧ i < limit)) :
    utf8StrnlenNext data limit (i, result) = none :=
  utf8CountNext_stop (decide_eq_false hstop)

private theorem not_ends_utf8StrnlenNext (data : ℕ → Byte) (hbyte : data i ≠ 0) (hi : i < limit)
    (hlength : utf8NextCharLength (data i) = 0) :
    ¬ Ends (utf8StrnlenNext data limit) (i, result) :=
  not_ends_of_stuck (decide_eq_true ⟨hbyte, hi⟩) hlength

end Walk

/-! ## The two functions -/

/-- **Counting characters stays within the string** exactly when the bytes, as far as they
are looked at, are cut into characters: for `CD_UTF8_strlen` all of them, for
`CD_UTF8_strnlen` those below the limit. -/
theorem utf8_lengths_bounded_iff {data : ℕ → Byte} {bytes : List Byte}
    (hdata : Terminated data bytes) :
    (Bounded (utf8StrlenNext data) bytes.length ↔ CutUpTo bytes bytes.length) ∧
      ∀ limit, Bounded (utf8StrnlenNext data limit) bytes.length ↔
        CutUpTo bytes (min limit bytes.length) := by
  have hread : ∀ i ≤ bytes.length, data i ≠ 0 ↔ i < bytes.length := by
    intro i hi
    rcases Nat.lt_or_eq_of_le hi with hlt | rfl
    · refine iff_of_true ?_ hlt
      rw [hdata.content i hlt]
      exact fun hzero => hdata.nul (hzero ▸ List.getElem_mem hlt)
    · exact iff_of_false (fun hne => hne hdata.terminator) (Nat.lt_irrefl _)
  refine ⟨?_, fun limit => ?_⟩
  · apply boundedFrom_iff hdata (Nat.le_refl _) _ (Nat.zero_le _)
    intro i hi
    rw [decide_eq_true_iff]
    exact hread i hi
  · apply boundedFrom_iff hdata (Nat.min_le_right _ _) _ (Nat.zero_le _)
    intro i hi
    rw [decide_eq_true_iff, hread i hi, Nat.lt_min, and_comm]

/-- A client's string of the single byte 0x80, with its terminator. -/
def strayByte : ℕ → Byte := fun i => if i = 0 then 0x80 else 0

/-- The single byte 0xC3, with its terminator. -/
def cutOffByte : ℕ → Byte := fun i => if i = 0 then 0xC3 else 0

theorem terminated_single {data : ℕ → Byte} {byte : Byte} (hbyte : byte ≠ 0)
    (hfirst : data 0 = byte) (hsecond : data 1 = 0) : Terminated data [byte] where
  nul := by simpa using hbyte.symm
  terminator := hsecond
  content := by
    intro i hi
    obtain rfl : i = 0 := Nat.lt_one_iff.mp hi
    exact hfirst

/-- On the stray byte both functions run for ever, and on the cut off one both read behind the
terminator. -/
theorem utf8_lengths_unbounded :
    (Terminated strayByte [0x80] ∧ ¬ Ends (utf8StrlenNext strayByte) (0, 0) ∧
      ¬ Ends (utf8StrnlenNext strayByte 1) (0, 0)) ∧
    Terminated cutOffByte [0xC3] ∧ Reaches (utf8StrlenNext cutOffByte) (0, 0) (2, 1) ∧
      Reaches (utf8StrnlenNext cutOffByte 1) (0, 0) (2, 1) := by
  refine ⟨⟨terminated_single (by decide) rfl rfl, ?_, ?_⟩,
    terminated_single (by decide) rfl rfl, .single rfl, .single rfl⟩
  · exact not_ends_of_stuck (by decide) (by decide)
  · exact not_ends_of_stuck (by decide) (by decide)

theorem utf8_lengths_bounded_iff_cutOff :
    (Bounded (utf8StrlenNext cutOffByte) 1 ↔ CutUpTo [0xC3] 1) ∧
      ∀ limit, Bounded (utf8StrnlenNext cutOffByte limit) 1 ↔ CutUpTo [0xC3] (min limit 1) :=
  utf8_lengths_bounded_iff (terminated_single (by decide) rfl rfl : Terminated cutOffByte [0xC3])

/-! ## The count of a content -/

/-- The walk of `cd_UpdateLength` over a content with NULs behind it. -/
def updateLengthNext (content : List Byte) : ℕ × ℕ → Option (ℕ × ℕ) :=
  utf8StrnlenNext (content.getD · 0) content.length

/-- From a place on, the walk ends with what `utf8Strnlen` counts in the bytes left. -/
theorem endsAt_iff (content : List Byte) (i result total : ℕ) :
    (∃ last, EndsAt (updateLengthNext content) (i, result) (last, total)) ↔
      (utf8Strnlen (content.drop i)).map (result + ·) = some total := by
  induction hremaining : content.length - i using Nat.strong_induction_on
    generalizing i result with
  | _ remaining ih =>
      have hget : ∀ hi : i < content.length, content.getD i 0 = content[i] := fun hi => by simp [hi]
      by_cases hgoes : content.getD i 0 ≠ 0 ∧ i < content.length
      · obtain ⟨hbyte, hi⟩ := hgoes
        -- a round of the loop is a round of the count
        have hstep : Follows (updateLengthNext content) (i, result) _ :=
          utf8StrnlenNext_goes hbyte hi
        have hstuck : utf8NextCharLength (content.getD i 0) = 0 →
            ¬ Ends (updateLengthNext content) (i, result) :=
          not_ends_utf8StrnlenNext (content.getD · 0) hbyte hi
        rw [hget hi] at hbyte hstep hstuck
        rw [List.drop_eq_getElem_cons hi, utf8Strnlen, utf8StrnlenFrom, if_neg hbyte]
        cases hlength : utf8NextCharLength content[i] with
        | zero =>
            -- a byte that leads no character stops both for ever
            refine iff_of_false ?_ fun hsome => ?_
            · rintro ⟨last, hends⟩
              exact hstuck hlength hends.ends
            · cases hsome
        | succ skip =>
            have hcount : ∀ count : Option ℕ,
                (count.map (· + 1)).map (result + ·) = count.map (result + 1 + ·) := by
              intro count
              rw [Option.map_map]
              congr 1
              funext n
              show result + (n + 1) = result + 1 + n
              omega
            simp only [endsAt_of_follows hstep]
            rw [ih _ (by omega) _ _ rfl, utf8StrnlenFrom_eq_drop, List.drop_drop, hcount, hlength]
            congr! 4
            omega
      · have hnone : updateLengthNext content (i, result) = none := utf8StrnlenNext_stop hgoes
        -- at the NUL, or behind all bytes, both stop
        have hzero : utf8Strnlen (content.drop i) = some 0 := by
          by_cases hi : i < content.length
          · have hbyte : content[i] = 0 := by
              by_contra hbyte
              exact hgoes ⟨by rwa [hget hi], hi⟩
            rw [List.drop_eq_getElem_cons hi, utf8Strnlen, utf8StrnlenFrom, if_pos hbyte]
          · rw [List.drop_of_length_le (Nat.not_lt.mp hi)]
            rfl
        simp only [endsAt_of_none hnone, hzero, Prod.mk.injEq]
        simp [eq_comm]

/-- **The count of a string** is what the walk over its content ends with; where there is
none, the walk never ends. -/
theorem utf8Strnlen_iff (content : List Byte) :
    (∀ length, utf8Strnlen content = some length ↔
      ∃ last, EndsAt (updateLengthNext content) (0, 0) (last, length)) ∧
    (utf8Strnlen content = none ↔ ¬ Ends (updateLengthNext content) (0, 0)) := by
  have hcount : ∀ length, utf8Strnlen content = some length ↔
      ∃ last, EndsAt (updateLengthNext content) (0, 0) (last, length) := by
    intro length
    have hstart := endsAt_iff content 0 0 length
    simp only [List.drop_zero, Nat.zero_add, Option.map_id'] at hstart
    exact hstart.symm
  refine ⟨hcount, ?_⟩
  constructor
  · rintro hnone hends
    obtain ⟨⟨last, length⟩, hend⟩ := hends.exists_endsAt
    have hsome := (hcount length).mpr ⟨last, hend⟩
    rw [hnone] at hsome
    cases hsome
  · intro hforever
    cases hlength : utf8Strnlen content with
    | none => rfl
    | some length =>
        obtain ⟨last, hend⟩ := (hcount length).mp hlength
        exact absurd hend.ends hforever

end Craftd.Containers
