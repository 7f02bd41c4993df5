import Mathlib.Data.List.TakeWhile
import Craftd.Protocol.StringColor

/-!
# Editing strings

A translation of what `String.c` does to a string and compares it with.  A string that holds
a text is edited as the text is: every edit succeeds, the length that is kept is that of the
edited text, and the comparisons of bytes are comparisons of characters.

For the last of these no character of a text may begin inside another one.  The bytes of a
character behind its first lead none (`utf8NextCharLength_tail`), so what ends like the bytes
of a text ends like the text (`suffix_iff`).
-/

namespace Craftd.Protocol

open Craftd.Containers

/-- `breplace`; beyond the end, the gap is filled up. -/
def breplace (b1 : List Byte) (pos len : ℕ) (b2 : List Byte) (fill : Byte) : List Byte :=
  if b1.length < pos then b1 ++ List.replicate (pos - b1.length) fill ++ b2
  else b1.take pos ++ b2 ++ b1.drop (pos + len)

/-- `CD_CharAtSet`. -/
def charAtSet (self : CDString) (index : ℕ) (set : CDString) : Option CDString :=
  let offset := utf8Offset self.content index
  createStringFromBuffer (breplace self.content offset
    (utf8NextCharLength (self.content.getD offset 0)) set.content 0)

/-- `CD_AppendString`. -/
def appendString (self append : CDString) : Option CDString :=
  createStringFromBuffer (binsert self.content self.size append.content 0)

/-- `CD_PrependString`. -/
def prependString (self append : CDString) : Option CDString :=
  createStringFromBuffer (binsert self.content 0 append.content 0)

/-- The bytes in front of the first NUL. -/
def cString (data : List Byte) : List Byte := data.takeWhile (· ≠ 0)

/-- `CD_StringIsEqual`. -/
def stringIsEqual (self : CDString) (b : List Byte) : Bool := cString self.content == cString b

/-- `CD_StringStartWith`. -/
def stringStartWith (self : CDString) (check : List Byte) : Bool :=
  strncmpEqual (strlen check) self.content check

/-- `CD_StringEndWith`; `none` when it compares from before the content. -/
def stringEndWith (self : CDString) (check : List Byte) : Option Bool :=
  let length := strlen check
  if length ≤ self.size then
    some (strncmpEqual length (self.content.drop (self.size - length)) check)
  else none

/-- A call of one of the functions that change a string, with the other string as C text. -/
inductive Edit
  | insert (position : ℕ) (text : List Char)
  | append (text : List Char)
  | prepend (text : List Char)
  | charSet (index : ℕ) (text : List Char)
  deriving DecidableEq

/-- What a call does to the string. -/
def edit (self : CDString) : Edit → Option CDString
  | .insert position text => do
      insertString self (← createStringFromBuffer (utf8Text text)) position
  | .append text => do appendString self (← createStringFromBuffer (utf8Text text))
  | .prepend text => do prependString self (← createStringFromBuffer (utf8Text text))
  | .charSet index text => do
      charAtSet self index (← createStringFromBuffer (utf8Text text))

namespace Edit

/-- What a call does to the text. -/
def apply (text : List Char) : Edit → List Char
  | .insert position inserted => insertAt text position inserted
  | .append appended => text ++ appended
  | .prepend prepended => prepended ++ text
  | .charSet index set => text.take index ++ set ++ text.drop (index + 1)

/-- The other string of a call. -/
def other : Edit → List Char
  | .insert _ text | .append text | .prepend text | .charSet _ text => text

/-- The place of a call is in the text, and the other string is a C string. -/
def Possible (text : List Char) (edit : Edit) : Prop :=
  Char.ofNat 0 ∉ edit.other ∧
    match edit with
    | .insert position _ => position ≤ text.length
    | .charSet index _ => index < text.length
    | _ => True

/-- Each call is possible when its turn comes. -/
def AllPossible : List Char → List Edit → Prop
  | _, [] => True
  | text, edit :: edits => edit.Possible text ∧ AllPossible (edit.apply text) edits

end Edit

/-! ## One edit -/

section Edits

variable {text : List Char}

private theorem length_utf8Chars (text : List Char) : (utf8Chars text).length = text.length := by
  rw [utf8Chars, List.length_map]

private theorem utf8Offset_text (hnul : Char.ofNat 0 ∉ text) {position : ℕ}
    (hposition : position ≤ text.length) :
    utf8Offset (utf8Text text) position = (utf8Text (text.take position)).length := by
  have hlength : position ≤ (utf8Chars text).length := by rwa [length_utf8Chars]
  rw [utf8Text, utf8Offset_flatten (isChar_of_mem_utf8Chars hnul) hlength, utf8Chars,
    ← List.map_take]
  rfl

private theorem binsert_inside (before behind inserted : List Byte) (fill : Byte) :
    binsert (before ++ behind) before.length inserted fill = before ++ inserted ++ behind := by
  have hinside : ¬ (before ++ behind).length < before.length := by
    rw [List.length_append]
    omega
  rw [binsert, if_neg hinside, List.take_left, List.drop_left]

theorem exists_string (hnul : Char.ofNat 0 ∉ text) :
    ∃ string, createStringFromBuffer (utf8Text text) = some string ∧
      string.content = utf8Text text := by
  obtain ⟨string, hcreate, hcontent, -⟩ :=
    createStringFromBuffer_flatten (isChar_of_mem_utf8Chars hnul)
  exact ⟨string, hcreate, hcontent⟩

private theorem charAtSet_text (hnul : Char.ofNat 0 ∉ text) {self set : CDString}
    {chosen : List Char}
    (hchosen : Char.ofNat 0 ∉ chosen) (hself : self.content = utf8Text text)
    (hset : set.content = utf8Text chosen) {index : ℕ} (hindex : index < text.length) :
    ∃ result, charAtSet self index set = some result ∧
      result.content = utf8Text (text.take index ++ chosen ++ text.drop (index + 1)) := by
  have hedited : Char.ofNat 0 ∉ text.take index ++ chosen ++ text.drop (index + 1) := by
    simp only [List.mem_append, not_or]
    exact ⟨⟨fun hmem => hnul (List.mem_of_mem_take hmem), hchosen⟩,
      fun hmem => hnul (List.mem_of_mem_drop hmem)⟩
  obtain ⟨result, hcreate, hcontent⟩ := exists_string hedited
  refine ⟨result, ?_, hcontent⟩
  -- the content in front of the character, the character, and what follows it
  have hsplit : self.content = utf8Text (text.take index) ++
      (utf8Bytes text[index] ++ utf8Text (text.drop (index + 1))) := by
    have hrest : utf8Text (text.drop index) =
        utf8Bytes text[index] ++ utf8Text (text.drop (index + 1)) := by
      rw [List.drop_eq_getElem_cons hindex]
      rfl
    rw [hself, ← hrest, ← utf8Text_append, List.take_append_drop]
  have hchar : IsChar (utf8Bytes text[index]) :=
    (isChar_utf8Bytes fun hzero => hnul (hzero ▸ List.getElem_mem hindex)).1
  have hlead : utf8NextCharLength (self.content.getD (utf8Text (text.take index)).length 0) =
      (utf8Bytes text[index]).length := by
    obtain ⟨data, rest, hbytes, -, hlength⟩ := hchar.exists_cons
    have hfirst : self.content.getD (utf8Text (text.take index)).length 0 = data := by
      rw [hsplit, hbytes, List.getD_eq_getElem?_getD, List.getElem?_append_right le_rfl,
        Nat.sub_self]
      rfl
    rw [hfirst, hlength, hbytes]
    rfl
  have hinside : ¬ self.content.length < (utf8Text (text.take index)).length := by
    rw [hsplit, List.length_append]
    omega
  have htake : self.content.take (utf8Text (text.take index)).length =
      utf8Text (text.take index) := by
    rw [hsplit, List.take_left]
  have hdrop : self.content.drop ((utf8Text (text.take index)).length +
      (utf8Bytes text[index]).length) = utf8Text (text.drop (index + 1)) := by
    rw [hsplit, ← List.drop_drop, List.drop_left, List.drop_left]
  have hoffset : utf8Offset self.content index = (utf8Text (text.take index)).length := by
    rw [hself, utf8Offset_text hnul hindex.le]
  have hbytes : breplace self.content (utf8Text (text.take index)).length
      (utf8Bytes text[index]).length set.content 0 =
        utf8Text (text.take index ++ chosen ++ text.drop (index + 1)) := by
    rw [breplace, if_neg hinside, htake, hdrop, hset, utf8Text_append, utf8Text_append]
  rw [charAtSet, hoffset, hlead, hbytes, hcreate]

/-- **One edit** of a string is the edit of its text. -/
theorem edit_text (hnul : Char.ofNat 0 ∉ text) {self : CDString} {call : Edit}
    (hself : self.content = utf8Text text) (hpossible : call.Possible text) :
    ∃ result, edit self call = some result ∧ result.content = utf8Text (call.apply text) ∧
      Char.ofNat 0 ∉ call.apply text := by
  obtain ⟨hother, hplace⟩ := hpossible
  obtain ⟨string, hcreate, hstring⟩ := exists_string hother
  cases call with
  | insert position inserted =>
      obtain ⟨result, hresult, hcontent⟩ :=
        insertString_text hnul hother hself hstring hplace
      refine ⟨result, ?_, hcontent, nul_notMem_insertAt hnul hother position⟩
      rw [Edit.other] at hcreate
      simp only [edit, hcreate, Option.bind_eq_bind, Option.bind_some, hresult]
  | append appended =>
      have hedited : Char.ofNat 0 ∉ text ++ appended := by
        rw [List.mem_append, not_or]
        exact ⟨hnul, hother⟩
      obtain ⟨result, hresult, hcontent⟩ := exists_string hedited
      refine ⟨result, ?_, hcontent, hedited⟩
      -- an append inserts behind all bytes
      have hbytes : binsert self.content self.size string.content 0 =
          utf8Text (text ++ appended) := by
        have hinsert := binsert_inside self.content [] string.content 0
        rw [List.append_nil, List.append_nil] at hinsert
        rw [CDString.size, hinsert, hself, hstring, utf8Text_append]
        rfl
      rw [Edit.other] at hcreate
      simp only [edit, hcreate, Option.bind_eq_bind, Option.bind_some, appendString, hbytes,
        hresult]
  | prepend prepended =>
      have hedited : Char.ofNat 0 ∉ prepended ++ text := by
        rw [List.mem_append, not_or]
        exact ⟨hother, hnul⟩
      obtain ⟨result, hresult, hcontent⟩ := exists_string hedited
      refine ⟨result, ?_, hcontent, hedited⟩
      -- a prepend inserts in front of all bytes
      have hbytes : binsert self.content 0 string.content 0 = utf8Text (prepended ++ text) := by
        rw [binsert, if_neg (Nat.not_lt_zero _), List.take_zero, List.drop_zero, List.nil_append,
          hself, hstring, utf8Text_append]
        rfl
      rw [Edit.other] at hcreate
      simp only [edit, hcreate, Option.bind_eq_bind, Option.bind_some, prependString, hbytes,
        hresult]
  | charSet index set =>
      obtain ⟨result, hresult, hcontent⟩ := charAtSet_text hnul hother hself hstring hplace
      refine ⟨result, ?_, hcontent, ?_⟩
      · rw [Edit.other] at hcreate
        simp only [edit, hcreate, Option.bind_eq_bind, Option.bind_some, hresult]
      · simp only [Edit.apply, List.mem_append, not_or]
        exact ⟨⟨fun hmem => hnul (List.mem_of_mem_take hmem), hother⟩,
          fun hmem => hnul (List.mem_of_mem_drop hmem)⟩

end Edits

/-! ## Comparing -/

section Comparing

variable {text check : List Char}

theorem cString_eq {data : List Byte} (hnul : 0 ∉ data) : cString data = data := by
  refine List.takeWhile_eq_self_iff.mpr fun byte hmem => ?_
  exact decide_eq_true fun hzero => hnul (hzero ▸ hmem)

/-- Comparing as many bytes as there are in front of the NUL is asking for a prefix. -/
theorem strncmpEqual_iff_isPrefix {a b : List Byte} (hnul : 0 ∉ b) :
    strncmpEqual b.length a b = true ↔ b <+: a := by
  induction b generalizing a with
  | nil => simp [strncmpEqual]
  | cons byte rest ih =>
      have hbyte : byte ≠ 0 := fun hzero => hnul (hzero ▸ .head _)
      have hrest : 0 ∉ rest := fun hmem => hnul (.tail _ hmem)
      cases a with
      | nil =>
          refine iff_of_false (fun hequal => ?_) fun hprefix => by simp at hprefix
          rw [List.length_cons, strncmpEqual, List.headD_nil, List.headD_cons, Bool.and_eq_true,
            beq_iff_eq] at hequal
          exact hbyte hequal.1.symm
      | cons first others =>
          rw [List.length_cons, strncmpEqual, List.headD_cons, List.headD_cons, List.tail_cons,
            List.tail_cons, List.cons_prefix_cons, Bool.and_eq_true, Bool.or_eq_true, beq_iff_eq,
            beq_iff_eq, ih hrest]
          constructor
          · rintro ⟨rfl, hzero | hprefix⟩
            · exact absurd hzero hbyte
            · exact ⟨rfl, hprefix⟩
          · rintro ⟨rfl, hprefix⟩
            exact ⟨rfl, .inr hprefix⟩

theorem utf8Text_injective (hnul : Char.ofNat 0 ∉ text) (hcheck : Char.ofNat 0 ∉ check)
    (heq : utf8Text text = utf8Text check) : text = check :=
  List.map_injective_iff.mpr utf8Bytes_injective
    (flatten_injective (isChar_of_mem_utf8Chars hnul) (isChar_of_mem_utf8Chars hcheck) heq)

private theorem tailByte_length {value : ℕ} (h : value < 0x40) :
    utf8NextCharLength (UInt8.ofNat (value + 0x80)).toBitVec = 0 := by
  revert value
  decide

/-- Behind the first byte of a character no byte leads one. -/
theorem utf8NextCharLength_tail (c : Char) :
    ∀ byte ∈ (utf8Bytes c).tail, utf8NextCharLength byte = 0 := by
  have htail : ∀ value : ℕ,
      utf8NextCharLength (UInt8.ofNat (value % 0x40 + 0x80)).toBitVec = 0 :=
    fun value => tailByte_length (Nat.mod_lt _ (by decide))
  unfold utf8Bytes String.utf8EncodeChar
  dsimp only
  split_ifs
  · exact fun byte hmem => absurd hmem List.not_mem_nil
  all_goals
    simp only [List.map_cons, List.map_nil, List.tail_cons, List.forall_mem_cons]
    simp only [htail, List.not_mem_nil, false_implies, implies_true, and_self]

private theorem utf8NextCharLength_head (hnul : Char.ofNat 0 ∉ text) {byte : Byte}
    {rest : List Byte}
    (hbytes : utf8Text text = byte :: rest) : utf8NextCharLength byte ≠ 0 := by
  cases text with
  | nil => cases hbytes
  | cons c others =>
      have hchar : IsChar (utf8Bytes c) := (isChar_utf8Bytes fun hzero => hnul (hzero ▸ .head _)).1
      obtain ⟨data, tail, hc, -, hlength⟩ := hchar.exists_cons
      have hcons : utf8Text (c :: others) = utf8Bytes c ++ utf8Text others := rfl
      rw [hcons, hc, List.cons_append, List.cons.injEq] at hbytes
      rw [← hbytes.1, hlength]
      exact Nat.succ_ne_zero _

/-- **What ends like the bytes of a text ends like the text.** -/
theorem suffix_iff (hnul : Char.ofNat 0 ∉ text) (hcheck : Char.ofNat 0 ∉ check) :
    utf8Text check <:+ utf8Text text ↔ check <:+ text := by
  constructor
  · intro hsuffix
    induction text with
    | nil =>
        have hempty : utf8Text check = utf8Text [] := List.suffix_nil.mp hsuffix
        rw [utf8Text_injective hcheck hnul hempty]
    | cons c rest ih =>
        have hc : c ≠ Char.ofNat 0 := fun hzero => hnul (hzero ▸ .head _)
        have hrest : Char.ofNat 0 ∉ rest := fun hmem => hnul (.tail _ hmem)
        obtain ⟨before, hbefore⟩ := hsuffix
        have hcons : utf8Text (c :: rest) = utf8Bytes c ++ utf8Text rest := rfl
        rw [hcons] at hbefore
        obtain ⟨middle, hbytes, hmiddle⟩ | ⟨middle, hbytes, hmiddle⟩ :=
          List.append_eq_append_iff.mp hbefore
        · cases before with
          | nil =>
              rw [List.nil_append] at hbytes hbefore
              rw [utf8Text_injective hcheck hnul (hbefore.trans hcons.symm)]
          | cons first before =>
              cases middle with
              | nil =>
                  rw [utf8Text_injective hcheck hrest hmiddle]
                  exact List.suffix_cons c rest
              | cons byte middle =>
                  -- a character would begin inside `c`
                  exfalso
                  have htail : utf8NextCharLength byte = 0 := by
                    refine utf8NextCharLength_tail c byte ?_
                    rw [hbytes, List.cons_append, List.tail_cons]
                    exact List.mem_append_right _ (.head _)
                  exact utf8NextCharLength_head hcheck hmiddle htail
        · exact (ih hrest ⟨middle, hmiddle.symm⟩).trans (List.suffix_cons c rest)
  · rintro ⟨before, rfl⟩
    exact ⟨utf8Text before, (utf8Text_append before check).symm⟩

/-- What begins like the bytes of a text begins like the text. -/
theorem prefix_iff (hnul : Char.ofNat 0 ∉ text) (hcheck : Char.ofNat 0 ∉ check) :
    utf8Text check <+: utf8Text text ↔ check <+: text := by
  constructor
  · intro hprefix
    induction check generalizing text with
    | nil => exact List.nil_prefix
    | cons d others ih =>
        have hd : IsChar (utf8Bytes d) :=
          (isChar_utf8Bytes fun hzero => hcheck (hzero ▸ .head _)).1
        have hothers : Char.ofNat 0 ∉ others := fun hmem => hcheck (.tail _ hmem)
        obtain ⟨behind, hbehind⟩ := hprefix
        have hcons : utf8Text (d :: others) = utf8Bytes d ++ utf8Text others := rfl
        cases text with
        | nil =>
            have hempty := (List.append_eq_nil_iff.mp hbehind).1
            rw [hcons, List.append_eq_nil_iff] at hempty
            exact absurd (congrArg List.length hempty.1) hd.length_pos.ne'
        | cons c rest =>
            have hc : IsChar (utf8Bytes c) :=
              (isChar_utf8Bytes fun hzero => hnul (hzero ▸ .head _)).1
            have hrest : Char.ofNat 0 ∉ rest := fun hmem => hnul (.tail _ hmem)
            have hcons' : utf8Text (c :: rest) = utf8Bytes c ++ utf8Text rest := rfl
            rw [hcons, hcons', List.append_assoc] at hbehind
            -- both start with the same byte, so the first characters are equally long
            have hlength : (utf8Bytes d).length = (utf8Bytes c).length := by
              obtain ⟨data, tail, hbytes, -, hlead⟩ := hd.exists_cons
              obtain ⟨data', tail', hbytes', -, hlead'⟩ := hc.exists_cons
              rw [hbytes, hbytes', List.cons_append, List.cons_append, List.cons.injEq] at hbehind
              rw [hbytes, hbytes', List.length_cons, List.length_cons, ← hlead, ← hlead',
                hbehind.1]
            obtain ⟨hchar, htail⟩ := List.append_inj hbehind hlength
            obtain rfl : d = c := utf8Bytes_injective hchar
            exact List.cons_prefix_cons.mpr ⟨rfl, ih hrest hothers ⟨behind, htail⟩⟩
  · rintro ⟨behind, rfl⟩
    exact ⟨utf8Text behind, (utf8Text_append check behind).symm⟩

/-- The comparisons of a string with C text.  Whether the string ends with the check can be asked
only of a check that is no longer. -/
structure ComparesAs (string : CDString) (text : List Char) : Prop where
  isEqual : ∀ check, Char.ofNat 0 ∉ check →
    (stringIsEqual string (utf8Text check) = true ↔ check = text)
  startWith : ∀ check, Char.ofNat 0 ∉ check →
    (stringStartWith string (utf8Text check) = true ↔ check <+: text)
  endWith : ∀ check, Char.ofNat 0 ∉ check → (utf8Text check).length ≤ (utf8Text text).length →
    ∃ ends, stringEndWith string (utf8Text check) = some ends ∧ (ends = true ↔ check <:+ text)
  endWith_longer : ∀ check, Char.ofNat 0 ∉ check →
    (utf8Text text).length < (utf8Text check).length →
      stringEndWith string (utf8Text check) = none

/-- **Comparing** the bytes of a string is comparing the characters of its text. -/
theorem comparesAs_text (hnul : Char.ofNat 0 ∉ text) {string : CDString}
    (hcontent : string.content = utf8Text text) : ComparesAs string text where
  isEqual := fun check hcheck => by
    rw [stringIsEqual, beq_iff_eq, hcontent, cString_eq (nul_notMem_utf8Text hnul),
      cString_eq (nul_notMem_utf8Text hcheck)]
    constructor
    · exact fun heq => (utf8Text_injective hnul hcheck heq).symm
    · rintro rfl
      rfl
  startWith := fun check hcheck => by
    rw [stringStartWith, strlen_eq (nul_notMem_utf8Text hcheck),
      strncmpEqual_iff_isPrefix (nul_notMem_utf8Text hcheck), hcontent, prefix_iff hnul hcheck]
  endWith := fun check hcheck hfits => by
    refine ⟨strncmpEqual (utf8Text check).length
      ((utf8Text text).drop ((utf8Text text).length - (utf8Text check).length))
        (utf8Text check), ?_, ?_⟩
    · rw [stringEndWith, strlen_eq (nul_notMem_utf8Text hcheck), CDString.size, hcontent,
        if_pos hfits]
    rw [strncmpEqual_iff_isPrefix (nul_notMem_utf8Text hcheck), ← suffix_iff hnul hcheck]
    constructor
    · intro hprefix
      -- what is left of the content is as long as the check
      have hlength : (utf8Text check).length =
          ((utf8Text text).drop ((utf8Text text).length - (utf8Text check).length)).length := by
        rw [List.length_drop]
        omega
      rw [List.IsPrefix.eq_of_length hprefix hlength]
      exact List.drop_suffix _ _
    · intro hsuffix
      rw [← List.suffix_iff_eq_drop.mp hsuffix]
  endWith_longer := fun check hcheck hlonger => by
    rw [stringEndWith, strlen_eq (nul_notMem_utf8Text hcheck), CDString.size, hcontent,
      if_neg (Nat.not_le.mpr hlonger)]

end Comparing

/-! ## Every edit -/

/-- An accent is inserted into `"nn"`, replaced and put between two other texts. -/
def accents : List Edit :=
  [.insert 1 ['é', 'e'], .charSet 1 ['ß'], .append ['!'], .prepend ['§', 'a']]

end Craftd.Protocol
