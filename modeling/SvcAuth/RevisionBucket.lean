import Mathlib.Tactic.Common
import Mathlib.Logic.Function.Basic

/-! A key/value bucket in which every write gets a revision of its own. A reader that
remembers a value and its revision can write back only while nobody else wrote. -/
namespace SvcAuth.RevisionBucket

structure Cell (V : Type) where
  value : V
  revision : ℕ
  written : ℕ

structure Bucket (K V : Type) where
  cells : K → Option (Cell V)
  seq : ℕ

namespace Bucket
variable {K V : Type}

def empty : Bucket K V := ⟨fun _ => none, 0⟩

/-- An unconditional write at time `now`. -/
def put [DecidableEq K] (b : Bucket K V) (now : ℕ) (k : K) (v : V) : Bucket K V :=
  ⟨Function.update b.cells k (some ⟨v, b.seq + 1, now⟩), b.seq + 1⟩

/-- The entries in `gone` vanish. -/
def drop (b : Bucket K V) (gone : K → Bool) : Bucket K V :=
  ⟨fun k => if gone k then none else b.cells k, b.seq⟩

/-- The entry under `k` is still the one of revision `rev`. -/
def Current (b : Bucket K V) (k : K) (rev : ℕ) : Prop :=
  ∃ c, b.cells k = some c ∧ c.revision = rev

/-- No entry carries a revision the bucket has not given out. -/
def Stamped (b : Bucket K V) : Prop := ∀ k c, b.cells k = some c → c.revision ≤ b.seq

/-- A reader once saw `v` at revision `rev`: if the entry is still of that revision,
it is still that value. -/
def Saw (b : Bucket K V) (k : K) (v : V) (rev : ℕ) : Prop :=
  rev ≤ b.seq ∧ ∀ c, b.cells k = some c → c.revision = rev → c.value = v

/-- A revision that was given out and is no longer current. -/
def Stale (b : Bucket K V) (k : K) (rev : ℕ) : Prop := rev ≤ b.seq ∧ ¬ b.Current k rev

/-- No entry was written later than `now`. -/
def Dated (b : Bucket K V) (now : ℕ) : Prop := ∀ k c, b.cells k = some c → c.written ≤ now

variable {b : Bucket K V} {now rev : ℕ} {k j : K} {v u : V} {c : Cell V} {gone : K → Bool}

theorem drop_cells (h : (b.drop gone).cells k = some c) : b.cells k = some c ∧ gone k = false := by
  unfold drop at h
  simp only at h
  split at h
  · cases h
  · rename_i hg
    exact ⟨h, by simpa using hg⟩

theorem drop_kept (b : Bucket K V) (h : gone k = false) : (b.drop gone).cells k = b.cells k := by
  simp [drop, h]

theorem stamped_empty : (empty : Bucket K V).Stamped := by
  intro k c h
  cases h

theorem Stamped.drop (hb : b.Stamped) (gone : K → Bool) : (b.drop gone).Stamped :=
  fun k c h => hb k c (drop_cells h).1

theorem Stamped.saw (hb : b.Stamped) (h : b.cells k = some c) : b.Saw k c.value c.revision := by
  refine ⟨hb k c h, fun d hd _ => ?_⟩
  rw [h] at hd
  rw [Option.some.inj hd]

theorem Saw.drop (hs : b.Saw k v rev) (gone : K → Bool) : (b.drop gone).Saw k v rev :=
  ⟨hs.1, fun c hc => hs.2 c (drop_cells hc).1⟩

theorem Stale.drop (hs : b.Stale k rev) (gone : K → Bool) : (b.drop gone).Stale k rev :=
  ⟨hs.1, fun ⟨c, hc, hrev⟩ => hs.2 ⟨c, (drop_cells hc).1, hrev⟩⟩

theorem dated_empty (now : ℕ) : (empty : Bucket K V).Dated now := by
  intro k c h
  cases h

theorem Dated.mono {later : ℕ} (hb : b.Dated now) (hle : now ≤ later) : b.Dated later :=
  fun k c h => Nat.le_trans (hb k c h) hle

theorem Dated.drop (hb : b.Dated now) (gone : K → Bool) : (b.drop gone).Dated now :=
  fun k c h => hb k c (drop_cells h).1

theorem Saw.current (hs : b.Saw k v rev) (hc : b.Current k rev) :
    ∃ c, b.cells k = some c ∧ c.value = v := by
  obtain ⟨c, hcell, hrev⟩ := hc
  exact ⟨c, hcell, hs.2 c hcell hrev⟩

instance (b : Bucket K V) (k : K) (rev : ℕ) : Decidable (b.Current k rev) :=
  decidable_of_iff ((b.cells k).map Cell.revision = some rev) Option.map_eq_some_iff

/-- A revision of the same count goes to a write elsewhere. -/
def skip (b : Bucket K V) : Bucket K V := { b with seq := b.seq + 1 }

@[simp] theorem skip_cells (b : Bucket K V) : b.skip.cells = b.cells := rfl

@[simp] theorem skip_seq (b : Bucket K V) : b.skip.seq = b.seq + 1 := rfl

section Put
variable [DecidableEq K]

@[simp] theorem put_same (b : Bucket K V) (now : ℕ) (k : K) (v : V) :
    (b.put now k v).cells k = some ⟨v, b.seq + 1, now⟩ := by
  simp [put]

theorem put_other (b : Bucket K V) (now : ℕ) (v : V) (h : j ≠ k) :
    (b.put now k v).cells j = b.cells j := by
  simp [put, h]

theorem put_cases (h : (b.put now k v).cells j = some c) :
    (j = k ∧ c = ⟨v, b.seq + 1, now⟩) ∨ (j ≠ k ∧ b.cells j = some c) := by
  by_cases hj : j = k
  · subst hj
    rw [put_same] at h
    exact .inl ⟨rfl, (Option.some.inj h).symm⟩
  · rw [put_other b now v hj] at h
    exact .inr ⟨hj, h⟩

theorem Stamped.put (hb : b.Stamped) (now : ℕ) (k : K) (v : V) : (b.put now k v).Stamped := by
  intro j c h
  rcases put_cases h with ⟨_, rfl⟩ | ⟨_, h⟩
  · exact Nat.le_refl _
  · exact Nat.le_trans (hb j c h) (Nat.le_succ _)

theorem Dated.put (hb : b.Dated now) (k : K) (v : V) : (b.put now k v).Dated now := by
  intro j c h
  rcases put_cases h with ⟨_, rfl⟩ | ⟨_, h⟩
  · exact Nat.le_refl _
  · exact hb j c h

theorem Stale.put (hs : b.Stale k rev) (now : ℕ) (j : K) (v : V) : (b.put now j v).Stale k rev := by
  refine ⟨Nat.le_trans hs.1 (Nat.le_succ _), ?_⟩
  rintro ⟨c, hc, hrev⟩
  rcases put_cases hc with ⟨_, rfl⟩ | ⟨_, hc⟩
  · have := hs.1
    simp only at hrev
    omega
  · exact hs.2 ⟨c, hc, hrev⟩

theorem Saw.put (hs : b.Saw k v rev) (now : ℕ) (j : K) (u : V) :
    (b.put now j u).Saw k v rev := by
  refine ⟨Nat.le_trans hs.1 (Nat.le_succ _), fun c hc hrev => ?_⟩
  rcases put_cases hc with ⟨_, rfl⟩ | ⟨_, hc⟩
  · have := hs.1
    simp only at hrev
    omega
  · exact hs.2 c hc hrev

end Put

end Bucket

section Relocation
variable {J K U V : Type}

/-- The same entry of another bucket, with its value and its revision renamed. -/
structure Cell.Renamed (f : U → V) (R : ℕ → ℕ → Prop) (c : Cell U) (d : Cell V) : Prop where
  value : d.value = f c.value
  revision : R c.revision d.revision
  written : d.written = c.written

/-- Under the images of the keys of `a` the bucket `b` holds what `a` holds. -/
def Bucket.Relocated (e : J → K) (f : U → V) (R : ℕ → ℕ → Prop) (a : Bucket J U)
    (b : Bucket K V) : Prop :=
  ∀ j, Option.Rel (Cell.Renamed f R) (a.cells j) (b.cells (e j))

namespace Bucket
variable {e : J → K} {f : U → V} {R : ℕ → ℕ → Prop} {a : Bucket J U} {b : Bucket K V}

theorem relocated_empty : (empty : Bucket J U).Relocated e f R (empty : Bucket K V) :=
  fun _ => .none

theorem Relocated.drop (h : a.Relocated e f R b) (gone : K → Bool) :
    (a.drop fun j => gone (e j)).Relocated e f R (b.drop gone) := by
  intro j
  cases hgone : gone (e j) with
  | true => simp [Bucket.drop, hgone]
  | false => simpa [Bucket.drop, hgone] using h j

theorem Relocated.current_iff (h : a.Relocated e f R b) {rev rev' : ℕ}
    (hrev : ∀ {r s}, R r s → (r = rev ↔ s = rev')) (j : J) :
    a.Current j rev ↔ b.Current (e j) rev' := by
  unfold Current
  have hj := h j
  generalize a.cells j = x, b.cells (e j) = y at hj ⊢
  cases hj with
  | none => simp
  | some hcell => simpa using hrev hcell.revision

variable [DecidableEq K]

theorem Relocated.beside (h : a.Relocated e f R b) {k : K} (hk : ∀ j, e j ≠ k) (now : ℕ) (v : V) :
    a.Relocated e f R (b.put now k v) := by
  intro j
  rw [put_other _ _ _ (hk j)]
  exact h j

variable [DecidableEq J]

/-- A write under the image of a key keeps the buckets together if the two revisions it
gets correspond. -/
theorem Relocated.put (h : a.Relocated e f R b) (he : Function.Injective e)
    (hseq : R (a.seq + 1) (b.seq + 1)) (now : ℕ) (i : J) (u : U) :
    (a.put now i u).Relocated e f R (b.put now (e i) (f u)) := by
  intro j
  by_cases hj : j = i
  · subst hj
    rw [put_same, put_same]
    exact .some ⟨rfl, hseq, rfl⟩
  · rw [put_other _ _ _ hj, put_other _ _ _ (he.ne hj)]
    exact h j

end Bucket

end Relocation

end SvcAuth.RevisionBucket
