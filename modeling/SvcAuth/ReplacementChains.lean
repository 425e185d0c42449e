import SvcAuth.FirstFamily
import SvcAuth.PhaseFollows
import SvcAuth.SampleDeployment
import Mathlib.Logic.Relation

/-! Replacements in the store. A used row names the row that replaced it: one of the same
family, stored before the old row was marked and under a UUID drawn later. Replacements
therefore lead, without ever coming back, to an unused row. -/
namespace SvcAuth
open Interleave RevisionBucket RefreshTokenStore

section Rank
variable {α : Type} {R : α → α → Prop} {rank : α → ℕ} {bound : ℕ}

theorem acyclic_of_rank (hR : ∀ a b, R a b → rank a < rank b) (a : α) :
    ¬ Relation.TransGen R a a := by
  have hgrow : ∀ b, Relation.TransGen R a b → rank a < rank b := by
    intro b h
    induction h with
    | single h => exact hR _ _ h
    | tail _ h ih => exact Nat.lt_trans ih (hR _ _ h)
  exact fun h => Nat.lt_irrefl _ (hgrow a h)

theorem ends_of_rank (hR : ∀ a b, R a b → rank a < rank b) (hbound : ∀ a b, R a b → rank b < bound)
    (a : α) : ∃ z, Relation.ReflTransGen R a z ∧ ∀ b, ¬ R z b := by
  induction hn : bound - rank a using Nat.strong_induction_on generalizing a with
  | _ n ih =>
    by_cases hend : ∀ b, ¬ R a b
    · exact ⟨a, .refl, hend⟩
    · push Not at hend
      obtain ⟨b, hb⟩ := hend
      have hlt := hR a b hb
      have hle := hbound a b hb
      obtain ⟨z, hz, hlast⟩ := ih (bound - rank b) (by omega) b rfl
      exact ⟨z, .head hb hz, hlast⟩

end Rank

variable {D : Deps} {S : AppState} {G : Assumption} {clock : ℕ} {ls ms : List Event}
  {c d : PhaseState} {l : Event} {t : ℕ}

section Drawing

/-- The UUIDs a run has drawn, in order. -/
def drawn (ls : List Event) : List Uuid :=
  ls.filterMap fun
    | .call _ .nowV7 u => some u
    | _ => none

/-- Both UUIDs were drawn, `a` before `b`. -/
def DrawnBefore (ls : List Event) (a b : Uuid) : Prop :=
  a ∈ drawn ls ∧ b ∈ drawn ls ∧ (drawn ls).idxOf a < (drawn ls).idxOf b

theorem drawn_append (ls ms : List Event) : drawn (ls ++ ms) = drawn ls ++ drawn ms :=
  List.filterMap_append

theorem DrawnBefore.snoc {a b : Uuid} (h : DrawnBefore ls a b) (l : Event) :
    DrawnBefore (ls ++ [l]) a b := by
  obtain ⟨ha, hb, hlt⟩ := h
  refine ⟨?_, ?_, ?_⟩
  · simp [drawn_append, ha]
  · simp [drawn_append, hb]
  · rwa [drawn_append, List.idxOf_append_of_mem ha, List.idxOf_append_of_mem hb]

theorem drawnBefore_new {a b : Uuid} (ha : a ∈ drawn ls) (hb : b ∉ drawn ls) :
    DrawnBefore (ls ++ [.call t .nowV7 b]) a b := by
  have hnew : drawn [.call t .nowV7 b] = [b] := rfl
  refine ⟨?_, ?_, ?_⟩
  · simp [drawn_append, ha]
  · simp [drawn_append, hnew]
  · rw [drawn_append, hnew, List.idxOf_append_of_mem ha, List.idxOf_append_of_notMem hb,
      List.idxOf_cons_self]
    exact Nat.lt_of_lt_of_le (List.idxOf_lt_length_of_mem ha) (Nat.le_add_right _ _)

theorem PhaseRun.mem_drawn (h : PhaseRun D S G clock ls c) (u : Uuid) :
    u ∈ drawn ls ↔ u ∈ c.world.minted := by
  refine h.invariant (I := fun ls c => ∀ u, u ∈ drawn ls ↔ u ∈ c.world.minted) ?_ ?_ u
  · simp [drawn]
  · intro ls c l d prior ih hs u
    rw [drawn_append, List.mem_append, ih]
    rcases phase_step hs.1 with ⟨t, q, rfl, -, hw, -⟩ | ⟨t, ph, o, r, ph', rfl, -, -, answer, -⟩ |
      ⟨e, rfl, hpass, -⟩
    · simp [drawn, hw]
    · generalize d.world = w at answer
      cases answer with
      | nowV7 u' fresh => simp [drawn, or_comm]
      | _ => simp [drawn, World.put]
    · rw [show d.world = _ from hpass]
      simp [drawn]

/-- The row a rotation holds and the UUID it has drawn for its successor. -/
def Phase.drawing : Phase → Option (Uuid × Uuid)
  | .refresh _ _ h _ id | .created _ _ h _ id _ => some (h.row.id, id)
  | .store _ d | .stamp _ d | .mark _ d _ => some (d.held.row.id, d.id)
  | _ => none

theorem Starts.drawing {q : Request} {ph : Phase} (h : Starts S q ph) : ph.drawing = none := by
  cases h <;> rfl

theorem Moves.drawing {ph ph' : Phase} {e : Calls.Event} (h : Moves D S ph e ph')
    {p : Uuid × Uuid} (hp : ph'.drawing = some p) : ph.drawing = some p ∨
      ∃ x email held signed id, ph = .mint x email held signed ∧ e = ⟨.nowV7, id⟩ ∧
        p = (held.row.id, id) := by
  cases h with
  | mint =>
    cases hp
    exact .inr ⟨_, _, _, _, _, rfl, rfl, rfl⟩
  | refresh => exact .inl hp
  | drafted => exact .inl hp
  | stored => exact .inl hp
  | stamp => exact .inl hp
  | _ => cases hp

theorem PhaseRun.drawn_later (h : PhaseRun D S G clock ls c) {ph : Phase} {a b : Uuid}
    (ht : c.threads t = some ph) (hp : ph.drawing = some (a, b)) : DrawnBefore ls a b := by
  refine h.known (P := fun ls t ph => ∀ a b, ph.drawing = some (a, b) → DrawnBefore ls a b)
    ?_ ?_ ?_ t ph ht a b hp
  · exact fun ls l t ph ih a b hp => (ih a b hp).snoc l
  · intro ls t q ph hs a b hp
    rw [hs.drawing] at hp
    cases hp
  · intro ls c t ph o r ph' w prior ht ih hm hw a b hp
    rcases hm.drawing hp with hold | ⟨x, email, held, signed, id, rfl, heq, hpair⟩
    · exact (ih a b hold).snoc _
    · cases heq
      cases hpair
      have hheld := ((prior.held_found ht rfl).issued prior).published.1
      apply drawnBefore_new
      · rw [prior.mem_drawn]
        exact prior.fresh.published _ hheld
      · rw [prior.mem_drawn]
        exact hw.nowV7_fresh.1

end Drawing

section Links

/-- A row was replaced by one stored under `next`. -/
structure Linked (D : Deps) (ls : List Event) (row : RefreshToken) (next : Uuid) : Prop where
  later : DrawnBefore ls row.id next
  stored : ∃ t s, Placed D ls t s ∧ s.id = next ∧ s.familyId = row.familyId

/-- A row is unused, or used and replaced. -/
def Chained (D : Deps) (ls : List Event) (row : RefreshToken) : Prop :=
  (row.usedAt = none ∧ row.replacedBy = none) ∨
    ∃ now next, row.usedAt = some now ∧ row.replacedBy = some next ∧ Linked D ls row next

theorem Linked.snoc {row : RefreshToken} {next : Uuid} (h : Linked D ls row next) (l : Event) :
    Linked D (ls ++ [l]) row next := by
  obtain ⟨t, s, hs, hid⟩ := h.stored
  exact ⟨h.later.snoc l, t, s, hs.mono (log_grows ls l), hid⟩

theorem Chained.snoc {row : RefreshToken} (h : Chained D ls row) (l : Event) :
    Chained D (ls ++ [l]) row := by
  rcases h with hunused | ⟨now, next, hu, hn, hlink⟩
  · exact .inl hunused
  · exact .inr ⟨now, next, hu, hn, hlink.snoc l⟩

theorem PhaseRun.chained (h : PhaseRun D S G clock ls c) :
    Throughout (fun ls _ v => ∀ row, v = .token row → Chained D ls row) ls c := by
  refine h.throughout (fun ls l k v hp row hv => (hp row hv).snoc l) ?_
  intro ls c t ph o r ph' k v prior ih ht hm hw row hv
  -- what `markUsed` writes back was drafted and its successor stored
  have hmark : ∀ (d : Draft) (now : ℕ), ph.drawing = some (d.held.row.id, d.id) →
      ph.draft = some d → row = d.replaced now → Chained D (ls ++ [.call t o r]) row := by
    rintro d now hdraw hdraft rfl
    have hlater := prior.drawn_later ht hdraw
    have hplaced := prior.draft_placed ht hdraft
    have hreplaced : Chained D ls (d.replaced now) :=
      .inr ⟨now, d.id, rfl, rfl, hlater, t, _, hplaced, rfl, rfl⟩
    exact hreplaced.snoc _
  cases hm with
  | stored => cases hw; cases hv; exact .inl ⟨rfl, rfl⟩
  | storeFailed => cases hw; cases hv; exact .inl ⟨rfl, rfl⟩
  | marked => cases hw; cases hv; exact hmark _ _ rfl rfl rfl
  | conflict => cases hw; cases hv; exact hmark _ _ rfl rfl rfl
  | markFailed => cases hw; cases hv; exact hmark _ _ rfl rfl rfl
  | revoke => cases hw; cases hv
  | logoutRevoke => cases hw; cases hv
  | loginStored => cases hw; cases hv; exact .inl ⟨rfl, rfl⟩
  | loginFailed => cases hw; cases hv; exact .inl ⟨rfl, rfl⟩
  | _ => cases hw

theorem PhaseRun.row_chained (h : PhaseRun D S G clock ls c) {id : Uuid} {row : RefreshToken}
    (hrow : c.world.RowOf D id row) : Chained D ls row := by
  obtain ⟨cell, hcell, hv⟩ := World.rowOf_iff.mp hrow
  exact h.chained.cells _ cell hcell row hv

end Links

section Evolution

/-- A row stays as it is, but for the one change from unused to used and replaced. -/
def RefreshToken.Evolves (row row' : RefreshToken) : Prop :=
  row' = row ∨ row.usedAt = none ∧ row.replacedBy = none ∧
    ∃ now next, row' = { row with usedAt := some now, replacedBy := some next }

theorem RefreshToken.Evolves.trans {row row' row'' : RefreshToken} (h : row.Evolves row')
    (h' : row'.Evolves row'') : row.Evolves row'' := by
  rcases h with rfl | ⟨hu, hn, now, next, rfl⟩
  · exact h'
  · rcases h' with rfl | ⟨hu', -⟩
    · exact .inr ⟨hu, hn, now, next, rfl⟩
    · cases hu'

theorem step_evolves (hG : ∀ w r l, G w r l → NoExpiry w r l) (prior : PhaseRun D S G clock ls c)
    (hs : GuardedStep service (machine D S) (start D S) G c l d) {id : Uuid} {row : RefreshToken}
    (hrow : c.world.RowOf D id row) : ∃ row', d.world.RowOf D id row' ∧ row.Evolves row' := by
  obtain ⟨cell, hcell, hv⟩ := World.rowOf_iff.mp hrow
  obtain ⟨hid, hissued⟩ := prior.rowOf_issued hrow
  rcases step_bucket hs.1 with hsame | ⟨t, o, r, ph, ph', k, v, rfl, ht, hm, hw, hput, hcur⟩ |
    ⟨e, rfl, hdrop⟩
  · exact ⟨row, World.rowOf_iff.mpr ⟨cell, by rwa [hsame], hv⟩, .inl rfl⟩
  · by_cases hk : rowKey D id = k
    · subst hk
      have hpub : Published D ls id := hid ▸ hissued.published.1
      obtain ⟨y, x, now, rfl, -, rfl, rfl⟩ := step_rewrites prior ht hm hw hpub
      have hfound := prior.held_found ht (show (Phase.mark y x now).held = some x.held from rfl)
      obtain ⟨y', x', now', heq, -, hkey, -, -⟩ := hm.updateIf
      cases heq
      have hsaw := prior.saw.2 t _ _ _ hfound
      rw [← hkey] at hsaw
      obtain ⟨cell', hcell', hv'⟩ := hsaw.current (hcur _ rfl)
      rw [hcell] at hcell'
      cases hcell'
      rw [hv] at hv'
      cases hv'
      refine ⟨x.replaced now, World.rowOf_iff.mpr ⟨_, by rw [hput, Bucket.put_same], rfl⟩, ?_⟩
      rcases prior.row_chained hrow with ⟨hu, hn⟩ | ⟨_, _, hu, -⟩
      · exact .inr ⟨hu, hn, now, x.id, rfl⟩
      · rw [x.unused] at hu
        cases hu
    · refine ⟨row, World.rowOf_iff.mpr ⟨cell, ?_, hv⟩, .inl rfl⟩
      rw [hput, Bucket.put_other _ _ _ hk, hcell]
  · refine ⟨row, World.rowOf_iff.mpr ⟨cell, ?_, hv⟩, .inl rfl⟩
    rw [hdrop, Bucket.drop_kept _ (hG _ _ _ hs.2 _), hcell]

theorem PhaseRun.evolves (hG : ∀ w r l, G w r l → NoExpiry w r l) (h : PhaseRun D S G clock ls c)
    (hseg : PhaseSegment D S G c ms d) {id : Uuid} {row : RefreshToken}
    (hrow : c.world.RowOf D id row) : ∃ row', d.world.RowOf D id row' ∧ row.Evolves row' := by
  refine hseg.invariant (I := fun _ d => ∃ row', d.world.RowOf D id row' ∧ row.Evolves row') ?_ ?_
  · exact ⟨row, hrow, .inl rfl⟩
  · intro ms d l e prior ih hs
    obtain ⟨row', hrow', hev⟩ := ih
    obtain ⟨row'', hrow'', hev'⟩ := step_evolves hG (Trace.trans h prior) hs hrow'
    exact ⟨row'', hrow'', hev.trans hev'⟩

end Evolution

section Chains

/-- The row of token `a` says that token `b` replaced it. -/
def World.Replaces (D : Deps) (w : World) (a b : Uuid) : Prop :=
  ∃ row, w.RowOf D a row ∧ row.replacedBy = some b

/-- A replacement is in the store, in the family of the row it replaced, drawn later. -/
theorem PhaseRun.replaces (hG : ∀ w r l, G w r l → NoExpiry w r l)
    (h : PhaseRun D S G clock ls c) {id next : Uuid} {row : RefreshToken}
    (hrow : c.world.RowOf D id row) (hn : row.replacedBy = some next) :
    DrawnBefore ls id next ∧ ∃ row', c.world.RowOf D next row' ∧ row'.familyId = row.familyId := by
  obtain ⟨rfl, -⟩ := h.rowOf_issued hrow
  rcases h.row_chained hrow with ⟨-, hnone⟩ | ⟨now, next', -, hn', hlink⟩
  · rw [hnone] at hn
    cases hn
  · rw [hn] at hn'
    cases hn'
    obtain ⟨t, s, hplaced, rfl, hfam⟩ := hlink.stored
    rcases hplaced.kept h with ⟨row', hrow'⟩ | hexpired
    · obtain ⟨hid, u, hs⟩ := h.rowOf_issued hrow'
      obtain ⟨-, rfl⟩ := h.stored_once hplaced.stored hs hid.symm
      exact ⟨hlink.later, row', hrow', hfam⟩
    · exact absurd hexpired (not_expired hG h)

theorem PhaseRun.leads (hG : ∀ w r l, G w r l → NoExpiry w r l) (h : PhaseRun D S G clock ls c)
    {id id' : Uuid} {row : RefreshToken} (hrow : c.world.RowOf D id row)
    (hlead : Relation.ReflTransGen (c.world.Replaces D) id id') :
    ∃ row', c.world.RowOf D id' row' ∧ row'.familyId = row.familyId := by
  induction hlead with
  | refl => exact ⟨row, hrow, rfl⟩
  | tail _ hstep ih =>
    obtain ⟨row', hrow', hfam⟩ := ih
    obtain ⟨row₁, hrow₁, hn⟩ := hstep
    obtain ⟨-, row'', hrow'', hfam'⟩ := h.replaces hG hrow₁ hn
    have hsame : row₁ = row' := by
      obtain ⟨cell, hcell, hv⟩ := World.rowOf_iff.mp hrow'
      obtain ⟨cell₁, hcell₁, hv₁⟩ := World.rowOf_iff.mp hrow₁
      rw [hcell] at hcell₁
      cases hcell₁
      rw [hv] at hv₁
      cases hv₁
      rfl
    exact ⟨row'', hrow'', by rw [hfam', hsame, hfam]⟩

/-- While nothing expires a row changes only from unused to used and replaced, and what
replaces it is a stored row of its family. Following replacements from any row stays in
the family, never comes back and ends at an unused row, whatever fails or stops. -/
theorem rows_chain (D : Deps) (S : AppState) (clock : ℕ) (ls : List Event) (c : ServiceState)
    (h : Run D S NoExpiry clock ls c) :
    (∀ ms d, Segment D S NoExpiry c ms d → ∀ id row, c.world.RowOf D id row →
      ∃ row', d.world.RowOf D id row' ∧ row.Evolves row') ∧
    (∀ id row, c.world.RowOf D id row → (row.usedAt.isSome ↔ row.replacedBy.isSome) ∧
      ∀ next, row.replacedBy = some next →
        ∃ row', c.world.RowOf D next row' ∧ row'.familyId = row.familyId) ∧
    ∀ id row, c.world.RowOf D id row →
      (∀ id', Relation.ReflTransGen (c.world.Replaces D) id id' →
        ∃ row', c.world.RowOf D id' row' ∧ row'.familyId = row.familyId) ∧
      (∀ id', ¬ Relation.TransGen (c.world.Replaces D) id' id') ∧
      ∃ last row', Relation.ReflTransGen (c.world.Replaces D) id last ∧
        c.world.RowOf D last row' ∧ row'.familyId = row.familyId ∧ row'.usedAt = none ∧
        row'.replacedBy = none := by
  obtain ⟨c', hc, hm⟩ := Segment.phases (mirrors_initial _) h
  have hkeep : ∀ w r l, NoExpiry w r l → NoExpiry w r l := fun _ _ _ hg => hg
  have hrank : ∀ a b, c'.world.Replaces D a b → (drawn ls).idxOf a < (drawn ls).idxOf b ∧
      (drawn ls).idxOf b < (drawn ls).length := by
    rintro a b ⟨row, hrow, hn⟩
    obtain ⟨⟨-, hb, hlt⟩, -⟩ := PhaseRun.replaces hkeep hc hrow hn
    exact ⟨hlt, List.idxOf_lt_length_of_mem hb⟩
  refine ⟨?_, ?_, ?_⟩
  · intro ms d hseg id row hrow
    obtain ⟨d', hd, hm'⟩ := Segment.phases hm hseg
    rw [hm'.1]
    rw [hm.1] at hrow
    exact PhaseRun.evolves hkeep hc hd hrow
  · intro id row hrow
    rw [hm.1] at hrow ⊢
    refine ⟨?_, fun next hn => (PhaseRun.replaces hkeep hc hrow hn).2⟩
    rcases PhaseRun.row_chained hc hrow with ⟨hu, hn⟩ | ⟨_, _, hu, hn, -⟩
    · simp [hu, hn]
    · simp [hu, hn]
  · intro id row hrow
    rw [hm.1] at hrow ⊢
    refine ⟨fun id' hlead => PhaseRun.leads hkeep hc hrow hlead,
      acyclic_of_rank fun a b hab => (hrank a b hab).1, ?_⟩
    obtain ⟨last, hlead, hend⟩ := ends_of_rank (fun a b hab => (hrank a b hab).1)
      (fun a b hab => (hrank a b hab).2) id
    obtain ⟨row', hrow', hfam⟩ := PhaseRun.leads hkeep hc hrow hlead
    rcases PhaseRun.row_chained hc hrow' with ⟨hu, hn⟩ | ⟨_, next, -, hn, -⟩
    · exact ⟨last, row', hlead, hrow', hfam, hu, hn⟩
    · exact absurd ⟨row', hrow', hn⟩ (hend next)

/-- In a run that rotates token 1 to token 4, the row of token 1 leads to an unused one. -/
theorem rows_chain_sample : ∃ ls c, Run Sample.deps Sample.state NoExpiry Sample.moment ls c ∧
    ∃ row, c.world.RowOf Sample.deps (serial 1) row ∧ row.replacedBy = some (serial 4) ∧
      (∃ row', c.world.RowOf Sample.deps (serial 4) row' ∧ row'.familyId = row.familyId) ∧
      (∀ id, ¬ Relation.TransGen (c.world.Replaces Sample.deps) id id) ∧
      ∃ last row', Relation.ReflTransGen (c.world.Replaces Sample.deps) (serial 1) last ∧
        c.world.RowOf Sample.deps last row' ∧ row'.familyId = row.familyId ∧
        row'.usedAt = none ∧ row'.replacedBy = none := by
  obtain ⟨c, hc, hm⟩ := PhaseSegment.service (mirrors_initial _)
    (rotation_run Sample.deps Sample.state Sample.moment permits_noExpiry Sample.live)
  obtain ⟨-, hlinks, hchains⟩ := rows_chain _ _ _ _ c hc
  have hrow : c.world.RowOf Sample.deps (serial 1) (usedHeld Sample.moment).row :=
    ⟨3, by rw [hm.1]; exact rotated_used Sample.deps Sample.moment⟩
  obtain ⟨-, hacyclic, hend⟩ := hchains _ _ hrow
  exact ⟨_, c, hc, _, hrow, rfl, (hlinks _ _ hrow).2 _ rfl, hacyclic, hend⟩

end Chains

end SvcAuth
