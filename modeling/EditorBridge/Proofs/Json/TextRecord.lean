import EditorBridge.Json.TextRecord
import Mathlib.Data.List.Forall2
/-!
# One text read as two records

Two records with fields of the same names, read from the same texts, can be
read side by side: `textRecord_along`. What the text holds, which fault it has
and where, does not depend on what is kept of it.
-/

namespace EditorBridge.Json

open Text (Bytes)

variable {α β : Type} {view : α → β}

/-- What has been read, seen through a view. -/
def Taken.map (view : α → β) (taken : Taken α) : Taken β := (view taken.1, taken.2)

/-- A field of a record whose view changes as a field of another record says. -/
structure TextField.Along (view : α → β) (f : TextField α) (g : TextField β) : Prop where
  name : f.name = g.name
  read : ∀ bs a, (g.read bs).map (fun p => (p.1 (view a), p.2)) =
    (f.read bs).map fun p => (view (p.1 a), p.2)

namespace Scan

variable {fs : List (TextField α)} {gs : List (TextField β)}

/-- The same is read first, and then one record like the other. -/
theorem bind_along {γ : Type} {x : Except Fault γ} {k : γ → Except Fault (Taken α)}
    {k' : γ → Except Fault (Taken β)} (h : ∀ c, k' c = (k c).map (Taken.map view)) :
    (x >>= k') = (x >>= k).map (Taken.map view) := by
  cases x with
  | error fault => rfl
  | ok c => exact h c

/-- A field is read first, and then the rest of one record like that of the other. -/
theorem read_along {f : TextField α} {g : TextField β} {k : α → Bytes → Except Fault (Taken α)}
    {k' : β → Bytes → Except Fault (Taken β)} (h : f.Along view g)
    (hk : ∀ a bs, k' (view a) bs = (k a bs).map (Taken.map view)) (a : α) (bs : Bytes) :
    (g.read bs >>= fun p => k' (p.1 (view a)) p.2) =
      (f.read bs >>= fun p => k (p.1 a) p.2).map (Taken.map view) := by
  have hread := h.read bs a
  cases hf : f.read bs with
  | error fault =>
    cases hg : g.read bs with
    | error fault' =>
      rw [hf, hg] at hread
      cases hread
      rfl
    | ok q => rw [hf, hg] at hread; cases hread
  | ok p =>
    cases hg : g.read bs with
    | error fault => rw [hf, hg] at hread; cases hread
    | ok q =>
      rw [hf, hg] at hread
      have hq : (q.1 (view a), q.2) = (view (p.1 a), p.2) := Except.ok.inj hread
      show k' (q.1 (view a)) q.2 = (k (p.1 a) p.2).map (Taken.map view)
      rw [(Prod.mk.inj hq).1, (Prod.mk.inj hq).2, hk]

theorem listEnd_along (a : α) (bs : Bytes) :
    listEnd (view a) bs = (listEnd a bs).map (Taken.map view) := by
  unfold listEnd
  cases skipSpace bs with
  | nil => rfl
  | cons b rest =>
    dsimp only
    split
    · rfl
    · split
      · split <;> rfl
      · rfl

theorem recordItems_along (h : List.Forall₂ (TextField.Along view) fs gs) (first : Bool) (a : α)
    (bs : Bytes) : recordItems gs first (view a) bs =
      (recordItems fs first a bs).map (Taken.map view) := by
  induction h generalizing first a bs with
  | nil => exact listEnd_along a bs
  | cons hf _ ih =>
    refine bind_along fun ⟨more, bs⟩ => ?_
    cases more with
    | false => rfl
    | true => exact read_along hf (fun a bs => ih false a bs) a bs

theorem find?_along (h : List.Forall₂ (TextField.Along view) fs gs) (key : String) :
    (fs.find? (·.name = key) = none ∧ gs.find? (·.name = key) = none) ∨
    ∃ f g, fs.find? (·.name = key) = some f ∧ gs.find? (·.name = key) = some g ∧
      f.Along view g := by
  induction h with
  | nil => exact .inl ⟨rfl, rfl⟩
  | @cons f g fs gs hf _ ih =>
    by_cases hk : f.name = key
    · have hk' : g.name = key := hf.name ▸ hk
      exact .inr ⟨f, g, by simp [hk], by simp [hk'], hf⟩
    · have hk' : ¬ g.name = key := hf.name ▸ hk
      simpa [List.find?_cons, hk, hk'] using ih

theorem recordMembers_along (h : List.Forall₂ (TextField.Along view) fs gs) (rounds : Nat)
    (first : Bool) (seen : List String) (a : α) (bs : Bytes) :
    recordMembers gs rounds first seen (view a) bs =
      (recordMembers fs rounds first seen a bs).map (Taken.map view) := by
  induction rounds generalizing first seen a bs with
  | zero => rfl
  | succ rounds ih =>
    refine bind_along fun ⟨more, bs⟩ => ?_
    cases more with
    | false => rfl
    | true =>
      refine bind_along fun ⟨key, bs⟩ => ?_
      rcases find?_along h key with ⟨hf, hg⟩ | ⟨f, g, hf, hg, hfg⟩
      · simp only [hf, hg]
        exact bind_along fun ⟨⟨⟩, bs⟩ => bind_along fun bs => ih false seen a bs
      · simp only [hf, hg]
        split
        · rfl
        · exact bind_along fun ⟨⟨⟩, bs⟩ => read_along hfg (ih false (key :: seen)) a bs

/-- A record is read like another one that keeps something else of the same text. -/
theorem textRecord_along (h : List.Forall₂ (TextField.Along view) fs gs) (kind : String) (a : α)
    (bs : Bytes) : textRecord kind gs (view a) bs =
      (textRecord kind fs a bs).map (Taken.map view) := by
  unfold textRecord atValue
  cases skipSpace bs with
  | nil => rfl
  | cons b rest =>
    dsimp only
    split
    · exact recordItems_along h true a rest
    · split
      · exact recordMembers_along h rest.length true [] a rest
      · unfold wrongType
        split
        · rfl
        · split
          · rfl
          · exact bind_along fun _ => rfl

end Scan

end EditorBridge.Json
