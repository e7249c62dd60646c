import EditorBridge.Json.TextRecord
import EditorBridge.Proofs.Json.ReadBack
/-!
# Records read back from what has been written

A record that is written as an object, some of its fields in any order, is read
as its defaults with these fields changed: `textRecord_written`. Fields that are
not written keep their defaults.
-/

namespace EditorBridge.Json

open Text (Bytes encodeChars)

variable {α : Type}

/-- A field that is written: its name, its value, and what that changes. -/
structure Entry (α : Type) where
  name : String
  value : Json
  change : α → α

/-- An entry as a member of the object. -/
def Entry.member (e : Entry α) : String × Json := (e.name, e.value)

namespace Scan

/-- A part of a text that is read as what was written, whatever may follow it. -/
def ReadsAs (read : Bytes → Except Fault (Taken α)) (j : Json) (a : α) : Prop :=
  ∀ rest, Stops rest → read (encodeChars j.chars ++ rest) = .ok (a, rest)

/-- An entry that one of the fields reads. -/
def Known (fields : List (TextField α)) (e : Entry α) : Prop :=
  ∃ f, fields.find? (·.name = e.name) = some f ∧ ReadsAs f.read e.value e.change

section Fields

theorem readsAs_string (expected s : String) : ReadsAs (textField expected) (.str s) s := by
  intro rest _
  rw [chars, encodeChars_quote, List.cons_append, List.append_assoc]
  exact string_escape s rest

/-- A string or `null`. -/
theorem readsAs_optional (expected : String) (s : Option String) :
    ReadsAs (optionalField (textField expected)) (orNull (s.map .str)) s := by
  intro rest h
  cases s with
  | none => rfl
  | some s =>
    have hs := readsAs_string expected s rest h
    rw [chars, encodeChars_quote, List.cons_append] at hs
    show optionalField (textField expected) (encodeChars (quote s) ++ rest) = _
    rw [encodeChars_quote, List.cons_append]
    exact congrArg (Except.map fun p => (some p.1, p.2)) hs

/-- A number of some bits, and no more than a word has. -/
theorem readsAs_natural {bits n : Nat} (kind : String) (hbits : n < Nat.pow 2 bits)
    (hword : n < Nat.pow 2 64) : ReadsAs (naturalField bits kind) (.int n) n := by
  intro rest h
  have hn : InWord n := by
    have : n < 2 ^ 64 := hword
    constructor <;> omega
  obtain ⟨b, bs, he, hb⟩ := chars_int_begin n
  have hnumber := number_chars hn h
  rw [he, List.cons_append] at hnumber
  have hdecode : Decoder.natural bits kind (.int n) = .ok n := by
    have hrange : (0 : Int) ≤ n ∧ (n : Int) ≤ Nat.pow 2 bits - 1 := by omega
    simp only [Decoder.natural, Decoder.integer, if_pos hrange]
    rfl
  rw [he, List.cons_append, naturalField, atValue, skipSpace_begins hb.isSpace]
  dsimp only
  refine (if_pos hb).trans ((bind_of_ok hnumber _).trans ?_)
  dsimp only
  rw [hdecode]
  rfl

end Fields

section Members

variable {fields : List (TextField α)} {first : Bool} {seen : List String} {a : α}
  {bs rest : Bytes}

theorem recordMembers_next {k : String} {f : TextField α} {change : α → α} {rounds : Nat}
    {bs₁ bs₂ bs₃ : Bytes} (hnext : nextKey first bs = .ok (true, bs₁))
    (hkey : string bs₁ = .ok (k, bs₂)) (hf : fields.find? (·.name = k) = some f)
    (hseen : k ∉ seen) (hcolon : colon bs₂ = .ok ((), bs₃))
    (hread : f.read bs₃ = .ok (change, rest)) :
    recordMembers fields (rounds + 1) first seen a bs =
      recordMembers fields rounds false (k :: seen) (change a) rest := by
  rw [recordMembers, bind_of_ok hnext]
  dsimp only
  rw [bind_of_ok hkey]
  simp only [hf, if_neg hseen]
  exact (bind_of_ok hcolon _).trans (bind_of_ok hread _)

theorem recordMembers_end {rounds : Nat} (h : rounds ≠ 0) :
    recordMembers fields rounds first seen a (byte '\x7d' :: rest) = .ok (a, rest) := by
  obtain ⟨rounds, rfl⟩ := Nat.exists_eq_add_one_of_ne_zero h
  exact bind_of_ok rfl _

theorem recordMembers_entry {e : Entry α} {rounds : Nat} (he : Known fields e)
    (hseen : e.name ∉ seen) (h : Stops rest) :
    recordMembers fields (rounds + 1) first seen a
        (comma first ++ (encodeChars (quote e.name ++ ':' :: e.value.chars) ++ rest)) =
      recordMembers fields rounds false (e.name :: seen) (e.change a) rest := by
  obtain ⟨f, hf, hread⟩ := he
  rw [encodeChars_member]
  exact recordMembers_next nextKey_quote (string_escape e.name _) hf hseen rfl (hread rest h)

/-- Entries separated by commas change the record one after the other. -/
theorem recordMembers_memberChars (e : Entry α) (entries : List (Entry α)) {rounds : Nat}
    (hknown : ∀ d ∈ e :: entries, Known fields d) (hseen : ∀ d ∈ e :: entries, d.name ∉ seen)
    (hnodup : ((e :: entries).map Entry.name).Nodup) (hrounds : entries.length + 1 < rounds) :
    recordMembers fields rounds first seen a
        (comma first ++
          (encodeChars (memberChars ((e :: entries).map Entry.member)) ++ byte '\x7d' :: rest)) =
      .ok ((e :: entries).foldl (fun a d => d.change a) a, rest) := by
  induction entries generalizing e first seen a rounds with
  | nil =>
    obtain ⟨rounds, rfl⟩ := Nat.exists_eq_add_one_of_ne_zero (Nat.ne_zero_of_lt hrounds)
    have hstop : Stops (byte '\x7d' :: rest) := stops_cons (by decide)
    exact (recordMembers_entry (hknown e List.mem_cons_self) (hseen e List.mem_cons_self)
      hstop).trans (recordMembers_end (by omega))
  | cons d entries ih =>
    obtain ⟨rounds, rfl⟩ := Nat.exists_eq_add_one_of_ne_zero (Nat.ne_zero_of_lt hrounds)
    obtain ⟨hfresh, hnodup⟩ := List.nodup_cons.1 hnodup
    have hstop : Stops (byte ',' :: (encodeChars (memberChars ((d :: entries).map Entry.member)) ++
        byte '\x7d' :: rest)) := stops_cons (by decide)
    rw [List.map_cons, List.map_cons, encodeChars_members]
    refine (recordMembers_entry (hknown e List.mem_cons_self) (hseen e List.mem_cons_self)
      hstop).trans (ih d (fun c hc => hknown c (List.mem_cons_of_mem _ hc)) (fun c hc => ?_)
        hnodup (Nat.lt_of_succ_lt_succ hrounds))
    rw [List.mem_cons, not_or]
    refine ⟨fun he => hfresh ?_, hseen c (List.mem_cons_of_mem _ hc)⟩
    exact he ▸ List.mem_map_of_mem hc

end Members

/-- A record is read back from an object of some of its fields. -/
theorem textRecord_written {fields : List (TextField α)} (kind : String) (a : α)
    (entries : List (Entry α)) (hknown : ∀ e ∈ entries, Known fields e)
    (hnodup : (entries.map Entry.name).Nodup) :
    ReadsAs (textRecord kind fields a) (.obj (entries.map Entry.member))
      (entries.foldl (fun a e => e.change a) a) := by
  intro rest _
  rw [encodeChars_object]
  show recordMembers fields _ true [] a _ = _
  cases entries with
  | nil => exact recordMembers_end (by simp)
  | cons e entries =>
    have hlength := length_lt_memberChars e.member (entries.map Entry.member)
    rw [List.length_map] at hlength
    exact recordMembers_memberChars e entries hknown (fun _ _ => List.not_mem_nil) hnodup
      (length_lt_text hlength)

end Scan

end EditorBridge.Json
