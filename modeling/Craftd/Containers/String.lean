import Mathlib.Data.BitVec
import Mathlib.Algebra.BigOperators.Group.List.Basic

/-!
# Strings

A translation of the parts of `String.c` that measure a `CDString` and take
single characters out of it.  A string keeps its content (the `slen` bytes of
its `bstring`) and the number of characters `cd_UpdateLength` counted in it; a
NUL stands behind the content.

`IsChar` says what the counting takes for a character, and the lemmas compute
`utf8Strnlen`, `utf8Offset` and `charAt` on a content that is cut into such
characters.
-/

namespace Craftd.Containers

/-- A byte of a string or of a buffer. -/
abbrev Byte := BitVec 8

/-- `cd_UTF8_nextCharLength`. -/
def utf8NextCharLength (data : Byte) : Nat :=
  if data &&& 0x80 = 0x00 then 1
  else if data &&& 0xE0 = 0xC0 then 2
  else if data &&& 0xF0 = 0xE0 then 3
  else if data &&& 0xF8 = 0xF0 then 4
  else 0

/-- The loop of `CD_UTF8_strnlen`, where `i` still has to pass the next `skip` bytes.
A byte that starts no character leaves `i` where it is, and the loop never ends. -/
def utf8StrnlenFrom : Nat → List Byte → Option Nat
  | _, [] => some 0
  | skip + 1, _ :: rest => utf8StrnlenFrom skip rest
  | 0, data :: rest =>
      if data = 0 then some 0
      else
        match utf8NextCharLength data with
        | 0 => none
        | skip + 1 => (utf8StrnlenFrom skip rest).map (· + 1)

/-- `CD_UTF8_strnlen`, up to the end of the content. -/
def utf8Strnlen (content : List Byte) : Option Nat := utf8StrnlenFrom 0 content

/-- `CD_UTF8_offset`. -/
def utf8Offset (content : List Byte) : Nat → Nat
  | 0 => 0
  | offset + 1 =>
      let result := utf8Offset content offset
      result + utf8NextCharLength (content.getD result 0)

/-- `CDString`, with the length `cd_UpdateLength` gave it. -/
@[ext] structure CDString where
  content : List Byte
  length : Nat
  hlength : utf8Strnlen content = some length

/-- `CD_StringSize`. -/
def CDString.size (string : CDString) : Nat := string.content.length

/-- `CD_CreateStringFromBuffer`; `none` when the length is never found. -/
def createStringFromBuffer (buffer : List Byte) : Option CDString :=
  match h : utf8Strnlen buffer with
  | none => none
  | some length => some ⟨buffer, length, h⟩

/-- The content of `CD_CharAt`, for an index below the length.  A character that is
cut off by the end of the content is filled up with the NULs behind it. -/
def charAt (string : CDString) (index : Nat) : List Byte :=
  let data := string.content.drop (utf8Offset string.content index)
  let limit := utf8Offset data 1
  (data ++ List.replicate limit 0).take limit

theorem CDString.eq_of_content {string string' : CDString}
    (h : string.content = string'.content) : string = string' := by
  obtain ⟨content, length, hlength⟩ := string
  obtain ⟨content', length', hlength'⟩ := string'
  obtain rfl : content = content' := h
  have : length = length' := Option.some.inj (hlength.symm.trans hlength')
  subst this
  rfl

instance : DecidableEq CDString := fun string string' =>
  decidable_of_iff (string.content = string'.content)
    ⟨CDString.eq_of_content, fun h => by rw [h]⟩

theorem createStringFromBuffer_eq (string : CDString) :
    createStringFromBuffer string.content = some string := by
  unfold createStringFromBuffer
  split
  next h => rw [string.hlength] at h; cases h
  next => exact congrArg some (CDString.eq_of_content rfl)

theorem content_of_createStringFromBuffer {buffer : List Byte} {string : CDString}
    (h : createStringFromBuffer buffer = some string) : string.content = buffer := by
  unfold createStringFromBuffer at h
  split at h
  · cases h
  · cases h
    rfl

/-! ## Walking along a content -/

theorem utf8StrnlenFrom_eq_drop (skip : Nat) (content : List Byte) :
    utf8StrnlenFrom skip content = utf8Strnlen (content.drop skip) := by
  induction content generalizing skip with
  | nil => simp [utf8StrnlenFrom, utf8Strnlen]
  | cons data rest ih =>
      cases skip with
      | zero => rfl
      | succ skip => exact ih skip

/-- A content with a character in it starts with a byte that leads one, and the rest
of the characters stand behind that one. -/
theorem utf8Strnlen_eq_succ {content : List Byte} {length : Nat}
    (h : utf8Strnlen content = some (length + 1)) :
    ∃ data rest skip, content = data :: rest ∧ data ≠ 0 ∧ utf8NextCharLength data = skip + 1 ∧
      utf8Strnlen (rest.drop skip) = some length := by
  cases content with
  | nil => cases h
  | cons data rest =>
      rw [utf8Strnlen, utf8StrnlenFrom] at h
      by_cases hdata : data = 0
      · rw [if_pos hdata] at h
        cases h
      · rw [if_neg hdata] at h
        cases hnext : utf8NextCharLength data with
        | zero =>
            rw [hnext] at h
            cases h
        | succ skip =>
            rw [hnext] at h
            obtain ⟨count, hcount, hsucc⟩ := Option.map_eq_some_iff.mp h
            refine ⟨data, rest, skip, rfl, hdata, hnext, ?_⟩
            rw [← utf8StrnlenFrom_eq_drop, hcount]
            exact congrArg some (Nat.succ.inj hsucc)

private theorem getD_drop_zero (content : List Byte) (skip index : Nat) :
    (content.drop skip).getD index 0 = content.getD (skip + index) 0 := by
  simp [List.getD_eq_getElem?_getD]

private theorem utf8Offset_cons {data : Byte} {rest : List Byte} {skip : Nat}
    (hnext : utf8NextCharLength data = skip + 1) (index : Nat) :
    utf8Offset (data :: rest) (index + 1) = skip + 1 + utf8Offset (rest.drop skip) index := by
  induction index with
  | zero => simp [utf8Offset, hnext]
  | succ index ih =>
      have hbyte : (data :: rest).getD (skip + 1 + utf8Offset (rest.drop skip) index) 0 =
          (rest.drop skip).getD (utf8Offset (rest.drop skip) index) 0 := by
        rw [getD_drop_zero, Nat.add_right_comm]
        rfl
      rw [utf8Offset, ih, utf8Offset]
      simp only [hbyte]
      rw [Nat.add_assoc]

/-! ## Characters -/

/-- `ch` is one character: not a NUL, and as long as its first byte says. -/
def IsChar (ch : List Byte) : Prop :=
  ch.headD 0 ≠ 0 ∧ utf8NextCharLength (ch.headD 0) = ch.length

instance (ch : List Byte) : Decidable (IsChar ch) := by
  unfold IsChar
  infer_instance

variable {ch : List Byte} {chars : List (List Byte)}

theorem IsChar.exists_cons (h : IsChar ch) :
    ∃ data rest, ch = data :: rest ∧ data ≠ 0 ∧ utf8NextCharLength data = rest.length + 1 := by
  cases ch with
  | nil => exact absurd rfl h.1
  | cons data rest => exact ⟨data, rest, rfl, h.1, h.2⟩

theorem IsChar.length_pos (h : IsChar ch) : 0 < ch.length := by
  obtain ⟨data, rest, rfl, -, -⟩ := h.exists_cons
  exact Nat.succ_pos _

theorem utf8Strnlen_char_append (h : IsChar ch) (rest : List Byte) :
    utf8Strnlen (ch ++ rest) = (utf8Strnlen rest).map (· + 1) := by
  obtain ⟨data, tail, rfl, hdata, hlength⟩ := h.exists_cons
  show utf8StrnlenFrom 0 (data :: (tail ++ rest)) = _
  rw [utf8StrnlenFrom, if_neg hdata, hlength]
  show Option.map _ (utf8StrnlenFrom tail.length (tail ++ rest)) = _
  rw [utf8StrnlenFrom_eq_drop, List.drop_left]

theorem utf8Strnlen_flatten (h : ∀ ch ∈ chars, IsChar ch) :
    utf8Strnlen chars.flatten = some chars.length := by
  induction chars with
  | nil => rfl
  | cons ch chars ih =>
      rw [List.flatten_cons, utf8Strnlen_char_append (h ch (.head _)),
        ih fun other hmem => h other (.tail _ hmem)]
      rfl

theorem createStringFromBuffer_flatten (h : ∀ ch ∈ chars, IsChar ch) :
    ∃ string, createStringFromBuffer chars.flatten = some string ∧
      string.content = chars.flatten ∧ string.length = chars.length := by
  let string : CDString := ⟨chars.flatten, chars.length, utf8Strnlen_flatten h⟩
  exact ⟨string, createStringFromBuffer_eq string, rfl, rfl⟩

theorem drop_length_take_flatten (chars : List (List Byte)) (index : Nat) :
    chars.flatten.drop (chars.take index).flatten.length = (chars.drop index).flatten := by
  have hsplit : chars.flatten = (chars.take index).flatten ++ (chars.drop index).flatten := by
    rw [← List.flatten_append, List.take_append_drop]
  rw [hsplit, List.drop_left]

/-- From the offset of a character on, the content starts with that character. -/
theorem drop_flatten_eq {index : Nat} (hindex : index < chars.length) :
    chars.flatten.drop (chars.take index).flatten.length =
      chars[index] ++ (chars.drop (index + 1)).flatten := by
  rw [drop_length_take_flatten, List.drop_eq_getElem_cons hindex, List.flatten_cons]

theorem utf8Offset_flatten (h : ∀ ch ∈ chars, IsChar ch) {index : Nat}
    (hindex : index ≤ chars.length) :
    utf8Offset chars.flatten index = (chars.take index).flatten.length := by
  induction index with
  | zero => rfl
  | succ index ih =>
      have hlt : index < chars.length := hindex
      obtain ⟨data, rest, hch, -, hlength⟩ :=
        (h chars[index] (List.getElem_mem hlt)).exists_cons
      -- the byte at the offset reached so far is the next character's first one
      have hbyte : chars.flatten.getD (chars.take index).flatten.length 0 = data := by
        have hhead := congrArg List.head? (drop_flatten_eq hlt)
        rw [List.head?_drop, hch] at hhead
        rw [List.getD_eq_getElem?_getD, hhead]
        rfl
      rw [utf8Offset, ih (Nat.le_of_succ_le hindex)]
      simp only [hbyte, hlength]
      rw [List.take_succ_eq_append_getElem hlt, List.flatten_append, List.length_append, hch]
      simp

theorem charAt_flatten (h : ∀ ch ∈ chars, IsChar ch) {string : CDString}
    (hcontent : string.content = chars.flatten) {index : Nat} (hindex : index < chars.length) :
    charAt string index = chars[index] := by
  obtain ⟨data, rest, hch, -, hlength⟩ := (h chars[index] (List.getElem_mem hindex)).exists_cons
  unfold charAt
  simp only [hcontent, utf8Offset_flatten h hindex.le, drop_flatten_eq hindex, hch]
  show (_ : List Byte).take (0 + utf8NextCharLength data) = _
  rw [hlength, List.append_assoc, Nat.zero_add]
  exact List.take_left' rfl

/-- Whatever the content is, what stands at an index below the length is a character. -/
theorem isChar_charAt {string : CDString} {index : Nat} (hindex : index < string.length) :
    IsChar (charAt string index) := by
  obtain ⟨content, length, hlength⟩ := string
  induction index generalizing content length with
  | zero =>
      obtain ⟨length, rfl⟩ : ∃ n, length = n + 1 := ⟨length - 1, by simp at hindex; omega⟩
      obtain ⟨data, rest, skip, rfl, hdata, hnext, -⟩ := utf8Strnlen_eq_succ hlength
      have hchar : charAt ⟨data :: rest, length + 1, hlength⟩ 0 =
          data :: (rest ++ List.replicate (skip + 1) 0).take skip := by
        simp [charAt, utf8Offset, hnext]
      rw [hchar]
      refine ⟨hdata, ?_⟩
      simp only [List.headD_cons, hnext, List.length_cons, List.length_take, List.length_append,
        List.length_replicate]
      omega
  | succ index ih =>
      obtain ⟨length, rfl⟩ : ∃ n, length = n + 1 := ⟨length - 1, by simp at hindex; omega⟩
      obtain ⟨data, rest, skip, rfl, -, hnext, hrest⟩ := utf8Strnlen_eq_succ hlength
      have hchar := ih (rest.drop skip) length hrest (Nat.lt_of_succ_lt_succ hindex)
      unfold charAt at hchar ⊢
      simp only [utf8Offset_cons hnext] at hchar ⊢
      rwa [Nat.add_right_comm, List.drop_succ_cons, ← List.drop_drop]

/-- A content can be cut into characters in one way only. -/
theorem flatten_injective {chars chars' : List (List Byte)} (h : ∀ ch ∈ chars, IsChar ch)
    (h' : ∀ ch ∈ chars', IsChar ch) (heq : chars.flatten = chars'.flatten) : chars = chars' := by
  induction chars generalizing chars' with
  | nil =>
      cases chars' with
      | nil => rfl
      | cons ch' chars' =>
          have hpos := (h' ch' (.head _)).length_pos
          rw [List.flatten_nil, List.flatten_cons] at heq
          have := congrArg List.length heq
          rw [List.length_nil, List.length_append] at this
          omega
  | cons ch chars ih =>
      cases chars' with
      | nil =>
          have hpos := (h ch (.head _)).length_pos
          rw [List.flatten_nil, List.flatten_cons] at heq
          have := congrArg List.length heq
          rw [List.length_nil, List.length_append] at this
          omega
      | cons ch' chars' =>
          -- both start with the same byte, so their first characters are equally long
          obtain ⟨data, rest, rfl, -, hlength⟩ := (h ch (.head _)).exists_cons
          obtain ⟨data', rest', rfl, -, hlength'⟩ := (h' ch' (.head _)).exists_cons
          rw [List.flatten_cons, List.flatten_cons, List.cons_append, List.cons_append] at heq
          obtain ⟨rfl, htails⟩ := List.cons.inj heq
          have hrest : rest.length = rest'.length := by omega
          obtain ⟨rfl, htail⟩ := List.append_inj htails hrest
          rw [ih (fun other hmem => h other (.tail _ hmem))
            (fun other hmem => h' other (.tail _ hmem)) htail]

end Craftd.Containers
