import Mathlib.Data.List.Basic
import Mathlib.Logic.Function.Basic
import Mathlib.Tactic.Common

/-!
# Tables kept in step by messages

A receiver keeps a table under the keys of some members, and hears of every member that joins,
changes or leaves by a message.  `Mirrors` says that the table has the values of the members and
nothing else; as long as no two members have the same key, it is kept by the change of one entry
for one member.  `heard` is what a receiver makes of messages that are sent to several.
-/

namespace MirrorTables

variable {Who Key Value Message Table : Type*}

/-! ## Tables -/

/-- The table has the value of every member under its key, and nothing else. -/
def Mirrors (key : Who → Key) (value : Who → Value) (members : Who → Prop)
    (table : Key → Option Value) : Prop :=
  ∀ k v, table k = some v ↔ ∃ who, members who ∧ key who = k ∧ value who = v

section Tables

variable {key key' : Who → Key} {value value' : Who → Value} {members members' : Who → Prop}
  {table : Key → Option Value} {who : Who}

theorem mirrors_empty (hnone : ∀ who, ¬ members who) :
    Mirrors key value members fun _ => none := by
  intro k v
  constructor
  · intro hsome
    cases hsome
  · rintro ⟨who, hwho, -⟩
    exact absurd hwho (hnone who)

theorem Mirrors.congr (h : Mirrors key value members table)
    (hmembers : ∀ who, members' who ↔ members who)
    (hkey : ∀ who, members who → key' who = key who)
    (hvalue : ∀ who, members who → value' who = value who) :
    Mirrors key' value' members' table := by
  intro k v
  rw [h]
  constructor
  · rintro ⟨who, hwho, rfl, rfl⟩
    exact ⟨who, (hmembers who).mpr hwho, hkey who hwho, hvalue who hwho⟩
  · rintro ⟨who, hwho, rfl, rfl⟩
    have hmember := (hmembers who).mp hwho
    exact ⟨who, hmember, (hkey who hmember).symm, (hvalue who hmember).symm⟩

variable [DecidableEq Key]

theorem Mirrors.insert (h : Mirrors key value members table)
    (hown : ∀ other, members other → key other = key who → other = who) :
    Mirrors key value (fun other => members other ∨ other = who)
      (Function.update table (key who) (some (value who))) := by
  intro k v
  by_cases hk : k = key who
  · subst hk
    rw [Function.update_self, Option.some.injEq]
    constructor
    · exact fun hv => ⟨who, .inr rfl, rfl, hv⟩
    · rintro ⟨other, hother | rfl, hkey, hv⟩
      · rwa [← hown other hother hkey]
      · exact hv
  · rw [Function.update_of_ne hk, h]
    constructor
    · rintro ⟨other, hother, hkey, hv⟩
      exact ⟨other, .inl hother, hkey, hv⟩
    · rintro ⟨other, hother | rfl, hkey, hv⟩
      · exact ⟨other, hother, hkey, hv⟩
      · exact absurd hkey.symm hk

/-- A member leaves, or one that is none is taken out. -/
theorem Mirrors.erase (h : Mirrors key value members table)
    (hown : ∀ other, members other → key other = key who → other = who) :
    Mirrors key value (fun other => members other ∧ other ≠ who)
      (Function.update table (key who) none) := by
  intro k v
  by_cases hk : k = key who
  · subst hk
    rw [Function.update_self]
    constructor
    · intro hsome
      cases hsome
    · rintro ⟨other, ⟨hother, hne⟩, hkey, -⟩
      exact absurd (hown other hother hkey) hne
  · rw [Function.update_of_ne hk, h]
    constructor
    · rintro ⟨other, hother, hkey, hv⟩
      refine ⟨other, ⟨hother, ?_⟩, hkey, hv⟩
      rintro rfl
      exact hk hkey.symm
    · rintro ⟨other, ⟨hother, -⟩, hkey, hv⟩
      exact ⟨other, hother, hkey, hv⟩

theorem Mirrors.change (h : Mirrors key value members table)
    (hown : ∀ other, members other → key other = key who → other = who) {f : Value → Value}
    (hself : value' who = f (value who))
    (hothers : ∀ other, other ≠ who → value' other = value other) :
    Mirrors key value' members
      (Function.update table (key who) ((table (key who)).map f)) := by
  intro k v
  by_cases hk : k = key who
  · subst hk
    rw [Function.update_self, Option.map_eq_some_iff]
    constructor
    · rintro ⟨old, hold, rfl⟩
      obtain ⟨other, hother, hkey, rfl⟩ := (h _ _).mp hold
      obtain rfl := hown other hother hkey
      exact ⟨other, hother, rfl, hself⟩
    · rintro ⟨other, hother, hkey, rfl⟩
      obtain rfl := hown other hother hkey
      exact ⟨value other, (h _ _).mpr ⟨other, hother, rfl, rfl⟩, hself.symm⟩
  · rw [Function.update_of_ne hk, h]
    have hne : ∀ other, key other = k → other ≠ who := by
      rintro other hkey rfl
      exact hk hkey.symm
    constructor
    · rintro ⟨other, hother, hkey, hv⟩
      exact ⟨other, hother, hkey, (hothers other (hne other hkey)).trans hv⟩
    · rintro ⟨other, hother, hkey, hv⟩
      exact ⟨other, hother, hkey, (hothers other (hne other hkey)).symm.trans hv⟩

end Tables

/-! ## Messages -/

section Messages

variable [DecidableEq Who] (apply : Message → Table → Table) (who : Who)

/-- What a receiver makes of the messages to it. -/
def heard (sent : List (Who × Message)) (table : Table) : Table :=
  sent.foldl (fun table message => if message.1 = who then apply message.2 table else table) table

@[simp] theorem heard_nil (table : Table) : heard apply who [] table = table := rfl

theorem heard_append (sent more : List (Who × Message)) (table : Table) :
    heard apply who (sent ++ more) table = heard apply who more (heard apply who sent table) :=
  List.foldl_append

theorem heard_cons (receiver : Who) (message : Message) (sent : List (Who × Message))
    (table : Table) :
    heard apply who ((receiver, message) :: sent) table =
      heard apply who sent (if receiver = who then apply message table else table) := rfl

theorem heard_others {sent : List (Who × Message)} (hothers : ∀ message ∈ sent, message.1 ≠ who)
    (table : Table) : heard apply who sent table = table := by
  induction sent with
  | nil => rfl
  | cons message sent ih =>
      obtain ⟨hfirst, hrest⟩ := List.forall_mem_cons.mp hothers
      rw [heard_cons, if_neg hfirst, ih hrest]

/-- One message to several, none of which gets it twice. -/
theorem heard_each {receivers : List Who} (hnodup : receivers.Nodup) (message : Message)
    (table : Table) :
    heard apply who (receivers.map fun receiver => (receiver, message)) table =
      if who ∈ receivers then apply message table else table := by
  induction receivers with
  | nil => rfl
  | cons receiver rest ih =>
      obtain ⟨hnew, hrest⟩ := List.nodup_cons.mp hnodup
      rw [List.map_cons, heard_cons]
      by_cases hreceiver : receiver = who
      · subst hreceiver
        rw [if_pos rfl, if_pos List.mem_cons_self]
        refine heard_others apply receiver (fun sent hsent => ?_) _
        obtain ⟨other, hother, rfl⟩ := List.mem_map.mp hsent
        rintro rfl
        exact hnew hother
      · have hmem : who ∈ receiver :: rest ↔ who ∈ rest := by
          rw [List.mem_cons, or_iff_right (Ne.symm hreceiver)]
        rw [if_neg hreceiver, ih hrest]
        simp only [hmem]

end Messages

end MirrorTables
