import SvcAuth.PhaseProjections

/-! What the log of a run says about the store: which rows were read, stored and marked,
and the two rules every invariant below is an instance of. One rule follows a thread
through its phases, the other follows the values under the keys of the bucket. -/
namespace SvcAuth
open Interleave RevisionBucket RefreshTokenStore

variable {D : Deps} {S : AppState} {G : Assumption} {clock : ℕ} {ls ms : List Event}
  {c d : PhaseState} {l : Event} {t u : ℕ}

section Rules

/-- The rule for threads: `Trace.known` over the moves of the machine. -/
theorem PhaseRun.known {P : List Event → ℕ → Phase → Prop}
    (hmono : ∀ ls l t ph, P ls t ph → P (ls ++ [l]) t ph)
    (hstart : ∀ ls t q ph, Starts S q ph → P (ls ++ [.arrive t q]) t ph)
    (hmove : ∀ ls c t ph o r ph' w, PhaseRun D S G clock ls c →
      c.threads t = some ph → P ls t ph → Moves D S ph ⟨o, r⟩ ph' → Answers c.world o r w →
      P (ls ++ [.call t o r]) t ph')
    (h : PhaseRun D S G clock ls c) : ∀ t ph, c.threads t = some ph → P ls t ph :=
  Trace.known hmono (fun ls _ t q _ _ _ => hstart ls t q _ (starts D S q))
    (fun ls c t ph o _ r w prior ht ih hv hw _ =>
      hmove ls c t ph o r _ w prior ht ih (moves_of_view D S hv r) hw) h

/-- The rule for answers: `Trace.after_call` over the moves of the machine. -/
theorem PhaseSegment.after {Q : (o : Op) → o.Reply → Phase → Prop}
    (hnew : ∀ ph o r ph', Moves D S ph ⟨o, r⟩ ph' → Q o r ph')
    (hkeep : ∀ ph o r ph' o' r', Moves D S ph ⟨o, r⟩ ph' → Q o' r' ph → Q o' r' ph')
    (h : PhaseSegment D S G c ls d) {o : Op} {r : o.Reply} (hl : .call t o r ∈ ls) :
    ∃ ph, d.threads t = some ph ∧ Q o r ph :=
  Trace.after_call (Q := Q) (fun _ _ _ r hv => hnew _ _ r _ (moves_of_view D S hv r))
    (fun _ _ _ r _ _ hv hq => hkeep _ _ r _ _ _ (moves_of_view D S hv r) hq) h hl

/-- The three kinds of step, with the move a call makes. -/
theorem phase_step (h : Step service (machine D S) (start D S) c l d) :
    (∃ t q, l = .arrive t q ∧ c.threads t = none ∧ d.world = c.world ∧
      d.threads = Function.update c.threads t (some (start D S q))) ∨
    (∃ t ph o r ph', l = .call t o r ∧ c.threads t = some ph ∧ Moves D S ph ⟨o, r⟩ ph' ∧
      Answers c.world o r d.world ∧ d.threads = Function.update c.threads t (some ph')) ∨
    ∃ e, l = .env e ∧ Passes c.world e d.world ∧ d.threads = c.threads := by
  rcases h.inv with harrive | ⟨t, ph, o, k, r, hl, here, waits, answer, hd⟩ | henv
  · exact .inl harrive
  · exact .inr (.inl ⟨t, ph, o, r, _, hl, here, moves_of_view D S waits r, answer, hd⟩)
  · exact .inr (.inr henv)

theorem step_call {o : Op} {r : o.Reply}
    (h : Step service (machine D S) (start D S) c (.call t o r) d) :
    ∃ ph ph', c.threads t = some ph ∧ Moves D S ph ⟨o, r⟩ ph' ∧ Answers c.world o r d.world ∧
      d.threads = Function.update c.threads t (some ph') := by
  rcases phase_step h with ⟨t₀, q, hl, -⟩ | ⟨t₀, ph, o, r, ph', hl, here, hm, answer, hd⟩ | ⟨e, hl, -⟩
  · cases hl
  · cases hl
    exact ⟨ph, ph', here, hm, answer, hd⟩
  · cases hl

/-- What a step does to the bucket: nothing, the write of one thread, or expiry. -/
theorem step_bucket (h : Step service (machine D S) (start D S) c l d) :
    d.world.bucket = c.world.bucket ∨
    (∃ t o r ph ph' k v, l = .call t o r ∧ c.threads t = some ph ∧ Moves D S ph ⟨o, r⟩ ph' ∧
      o.write = some (k, v) ∧ d.world.bucket = c.world.bucket.put c.world.clock k v ∧
      ∀ rev, o = .updateIf k v rev → c.world.bucket.Current k rev) ∨
    ∃ e, l = .env e ∧ d.world.bucket = c.world.bucket.drop e.expired := by
  rcases phase_step h with ⟨t, q, -, -, hw, -⟩ | ⟨t, ph, o, r, ph', hl, here, hm, answer, -⟩
    | ⟨e, hl, hpass, -⟩
  · exact .inl (by rw [hw])
  · rcases answer.bucket with hsame | ⟨k, v, hw, hput, hcur⟩
    · exact .inl hsame
    · exact .inr (.inl ⟨t, o, r, ph, ph', k, v, hl, here, hm, hw, hput, hcur⟩)
  · exact .inr (.inr ⟨e, hl, by rw [hpass]⟩)

theorem step_read {k : KvKey} {v : Entry} {rev : Revision}
    (h : Step service (machine D S) (start D S) c (.call t (.get k) (.ok (some (v, rev)))) d) :
    ∃ cell, c.world.bucket.cells k = some cell ∧ cell.value = v ∧ cell.revision = rev := by
  obtain ⟨-, -, -, -, answer, -⟩ := step_call h
  obtain ⟨-, hread | hread⟩ := answer.of_get
  · exact World.read_eq_some (Except.ok.inj hread).symm
  · cases hread

/-- A fact about everything the bucket holds, and everything that was ever read from it. -/
structure Throughout (P : List Event → KvKey → Entry → Prop) (ls : List Event) (c : PhaseState) :
    Prop where
  cells : ∀ k cell, c.world.bucket.cells k = some cell → P ls k cell.value
  reads : ∀ t k v rev, .call t (.get k) (.ok (some (v, rev))) ∈ ls → P ls k v

/-- The rule for the bucket: a fact holds throughout if every write establishes it. -/
theorem PhaseRun.throughout {P : List Event → KvKey → Entry → Prop}
    (hmono : ∀ ls l k v, P ls k v → P (ls ++ [l]) k v)
    (hwrite : ∀ ls c t ph o r ph' k v, PhaseRun D S G clock ls c →
      Throughout P ls c → c.threads t = some ph → Moves D S ph ⟨o, r⟩ ph' →
      o.write = some (k, v) → P (ls ++ [.call t o r]) k v)
    (h : PhaseRun D S G clock ls c) : Throughout P ls c := by
  refine h.invariant (I := fun ls c => Throughout P ls c) ?_ ?_
  · exact ⟨fun k cell hcell => (nomatch hcell), by simp⟩
  · intro ls c l d prior ih hs
    constructor
    · intro k cell hcell
      rcases step_bucket hs.1 with hsame | ⟨t, o, r, ph, ph', key, v, rfl, ht, hm, hw, hput, -⟩
        | ⟨e, rfl, hdrop⟩
      · rw [hsame] at hcell
        exact hmono _ _ _ _ (ih.cells k cell hcell)
      · rw [hput] at hcell
        rcases Bucket.put_cases hcell with ⟨rfl, rfl⟩ | ⟨-, hold⟩
        · exact hwrite ls c t ph o r ph' k v prior ih ht hm hw
        · exact hmono _ _ _ _ (ih.cells k cell hold)
      · rw [hdrop] at hcell
        exact hmono _ _ _ _ (ih.cells k cell (Bucket.drop_cells hcell).1)
    · intro t k v rev hl
      rw [List.mem_append, List.mem_singleton] at hl
      rcases hl with hl | rfl
      · exact hmono _ _ _ _ (ih.reads t k v rev hl)
      · obtain ⟨cell, hcell, rfl, -⟩ := step_read hs.1
        exact hmono _ _ _ _ (ih.cells k cell hcell)

end Rules

section Log
variable (D ls)

/-- Request `t` read this row. -/
def Found (t : ℕ) (h : Held) : Prop :=
  .call t (.get (rowKey D h.row.id)) (.ok (some (.token h.row, h.revision))) ∈ ls

/-- Request `t` tried to store this row. -/
def Stored (t : ℕ) (row : RefreshToken) : Prop :=
  ∃ r, .call t (.put (rowKey D row.id) (.token row)) r ∈ ls

/-- Request `t` stored this row and was told so. -/
def Placed (t : ℕ) (row : RefreshToken) : Prop :=
  .call t (.put (rowKey D row.id) (.token row)) (.ok ()) ∈ ls

/-- Request `t` tried to write this row back as used. -/
def Marked (t : ℕ) (row : RefreshToken) : Prop :=
  ∃ rev r, .call t (.updateIf (rowKey D row.id) (.token row) rev) r ∈ ls

/-- Request `t` wrote this row back as used and was told so. -/
def Committed (t : ℕ) (row : RefreshToken) : Prop :=
  ∃ rev, .call t (.updateIf (rowKey D row.id) (.token row) rev) (.ok ()) ∈ ls

/-- An entry under this key has expired. -/
def Expired (k : KvKey) : Prop := ∃ e, .env e ∈ ls ∧ e.expired k = true

/-- A row as it was first stored. -/
def RefreshToken.issued (row : RefreshToken) : RefreshToken :=
  { row with usedAt := none, replacedBy := none }

/-- The row goes back to one that some request stored. -/
def Issued (row : RefreshToken) : Prop := ∃ t, Stored D ls t row.issued

variable {D ls}

theorem log_grows (ls : List Event) (l : Event) : ls ⊆ ls ++ [l] := List.subset_append_left ls [l]

theorem Found.mono (hsub : ls ⊆ ms) {h : Held} (hf : Found D ls t h) : Found D ms t h := hsub hf

theorem Stored.mono (hsub : ls ⊆ ms) {row : RefreshToken} (hs : Stored D ls t row) :
    Stored D ms t row :=
  hs.imp fun _ hl => hsub hl

theorem Placed.stored {row : RefreshToken} (hp : Placed D ls t row) : Stored D ls t row := ⟨_, hp⟩

theorem Placed.mono (hsub : ls ⊆ ms) {row : RefreshToken} (hp : Placed D ls t row) :
    Placed D ms t row :=
  hsub hp

theorem Marked.mono (hsub : ls ⊆ ms) {row : RefreshToken} (hm : Marked D ls t row) :
    Marked D ms t row := by
  obtain ⟨rev, r, hl⟩ := hm
  exact ⟨rev, r, hsub hl⟩

theorem Committed.marked {row : RefreshToken} (hc : Committed D ls t row) : Marked D ls t row := by
  obtain ⟨rev, hl⟩ := hc
  exact ⟨rev, _, hl⟩

theorem not_expired (hG : ∀ w r l, G w r l → NoExpiry w r l) (h : PhaseSegment D S G c ls d)
    {k : KvKey} : ¬ Expired ls k := by
  rintro ⟨e, he, hgone⟩
  obtain ⟨-, -, _, _, -, -, hstep, -⟩ := Trace.at_label h he
  have hkeep := hG _ _ _ hstep.2 k
  rw [hgone] at hkeep
  cases hkeep

theorem Issued.mono (hsub : ls ⊆ ms) {row : RefreshToken} (hs : Issued D ls row) :
    Issued D ms row :=
  hs.imp fun _ h => h.mono hsub

end Log

section Keys

/-- Rows and markers live under keys of their own. -/
def WellKeyed (D : Deps) (k : KvKey) : Entry → Prop
  | .token row => k = rowKey D row.id
  | .revoked _ => ∃ f, k = markerKey D f

theorem Moves.wellKeyed {ph ph' : Phase} {o : Op} {r : o.Reply} {k : KvKey} {v : Entry}
    (h : Moves D S ph ⟨o, r⟩ ph') (hw : o.write = some (k, v)) : WellKeyed D k v := by
  cases h with
  | stored => cases hw; rfl
  | storeFailed => cases hw; rfl
  | marked => cases hw; rfl
  | conflict => cases hw; rfl
  | markFailed => cases hw; rfl
  | revoke => cases hw; exact ⟨_, rfl⟩
  | logoutRevoke => cases hw; exact ⟨_, rfl⟩
  | loginStored => cases hw; rfl
  | loginFailed => cases hw; rfl
  | _ => cases hw

theorem PhaseRun.wellKeyed (h : PhaseRun D S G clock ls c) :
    Throughout (fun _ k v => WellKeyed D k v) ls c :=
  h.throughout (fun _ _ _ _ hp => hp) fun _ _ _ _ _ _ _ _ _ _ _ _ hm hw => hm.wellKeyed hw

theorem PhaseRun.marker_cell (h : PhaseRun D S G clock ls c) {f : Uuid}
    {cell : Cell Entry} (hcell : c.world.bucket.cells (markerKey D f) = some cell) :
    ∃ m, cell.value = .revoked m := by
  have hkey := h.wellKeyed.cells _ cell hcell
  cases hv : cell.value with
  | token row =>
    rw [hv] at hkey
    exact absurd hkey (markerKey_ne_rowKey D _ _)
  | revoked m => exact ⟨m, rfl⟩

theorem PhaseRun.row_cell (h : PhaseRun D S G clock ls c) {id : Uuid}
    {cell : Cell Entry} (hcell : c.world.bucket.cells (rowKey D id) = some cell) :
    ∃ row, cell.value = .token row ∧ row.id = id := by
  have hkey := h.wellKeyed.cells _ cell hcell
  cases hv : cell.value with
  | token row =>
    rw [hv] at hkey
    exact ⟨row, rfl, ((rowKey_inj D).mp hkey).symm⟩
  | revoked m =>
    rw [hv] at hkey
    obtain ⟨f, hf⟩ := hkey
    exact absurd hf (rowKey_ne_markerKey D _ _)

theorem Found.of_read (h : PhaseRun D S G clock ls c) {id : Uuid} {row : RefreshToken}
    {rev : Revision} (hl : .call t (.get (rowKey D id)) (.ok (some (.token row, rev))) ∈ ls) :
    row.id = id ∧ Found D ls t ⟨row, rev⟩ := by
  have hid : row.id = id := ((rowKey_inj D).mp (h.wellKeyed.reads t _ _ rev hl)).symm
  exact ⟨hid, by rw [← hid] at hl; exact hl⟩

end Keys

section Holding

theorem PhaseRun.held_found (h : PhaseRun D S G clock ls c) {ph : Phase} {x : Held}
    (ht : c.threads t = some ph) (hx : ph.held = some x) : Found D ls t x := by
  refine h.known (P := fun ls t ph => ∀ x, ph.held = some x → Found D ls t x) ?_ ?_ ?_ t ph ht x hx
  · exact fun ls l t ph ih x hx => (ih x hx).mono (log_grows ls l)
  · intro ls t q ph hs x hx
    rw [hs.held] at hx
    cases hx
  · intro ls c t ph o r ph' w prior ht ih hm hw x hx
    rcases hm.held with hsame | ⟨-, jti, row, rev, heq, hnew⟩
    · exact (ih x (hsame ▸ hx)).mono (log_grows _ _)
    · cases heq
      rw [hnew] at hx
      cases hx
      obtain ⟨-, hread | hread⟩ := hw.of_get
      · obtain ⟨cell, hcell, hv, -⟩ := World.read_eq_some (Except.ok.inj hread).symm
        obtain ⟨row', hv', hid⟩ := prior.row_cell hcell
        rw [hv] at hv'
        cases hv'
        rw [← hid]
        simp [Found]
      · cases hread

/-- The phase still holds the row, if that is what the answer was. -/
def Keeps (D : Deps) : (o : Op) → o.Reply → Phase → Prop
  | .get k, .ok (some (.token row, rev)), ph => (∃ id, k = rowKey D id) → ph.held = some ⟨row, rev⟩
  | _, _, _ => True

theorem Moves.keeps {ph ph' : Phase} {o : Op} {r : o.Reply} (h : Moves D S ph ⟨o, r⟩ ph') :
    Keeps D o r ph' := by
  cases h with
  | found => exact fun _ => rfl
  | logoutFound => exact fun _ => rfl
  | @clear x email held r read =>
    rcases r with e | _ | ⟨row | m, rev⟩
    · trivial
    · trivial
    · rintro ⟨id, hid⟩
      exact absurd hid (markerKey_ne_rowKey D _ _)
    · trivial
  | @logoutMissing jti r absent =>
    rcases r with e | _ | ⟨row | m, rev⟩
    · trivial
    · trivial
    · exact absurd rfl (absent row rev)
    · trivial
  | _ => trivial

theorem Found.held (h : PhaseSegment D S G c ls d) {x : Held} (hf : Found D ls t x) :
    ∃ ph, d.threads t = some ph ∧ ph.held = some x := by
  have hkeep : ∀ ph o r ph' o' r', Moves D S ph ⟨o, r⟩ ph' → Keeps D o' r' ph → Keeps D o' r' ph' := by
    intro ph o r ph' o' r' hm hq
    cases o' with
    | get k =>
      rcases r' with e | _ | ⟨row | m, rev⟩
      · trivial
      · trivial
      · intro hk
        rcases hm.held with hsame | ⟨hnone, -⟩
        · rw [hsame]
          exact hq hk
        · have hheld := hq hk
          rw [hnone] at hheld
          cases hheld
      · trivial
    | _ => trivial
  obtain ⟨ph, ht, hq⟩ := PhaseSegment.after (Q := Keeps D) (fun _ _ _ _ hm => hm.keeps) hkeep h hf
  exact ⟨ph, ht, hq ⟨_, rfl⟩⟩

theorem Marked.closing (h : PhaseSegment D S G c ls d) {row : RefreshToken}
    (hm : Marked D ls t row) : ∃ ph, d.threads t = some ph ∧ ph.closing = true := by
  obtain ⟨rev, r, hl⟩ := hm
  let Q : (o : Op) → o.Reply → Phase → Prop := fun o _ ph =>
    (∃ k v rev, o = .updateIf k v rev) → ph.closing = true
  obtain ⟨ph, ht, hq⟩ := PhaseSegment.after (Q := Q)
    (by
      rintro ph o r ph' hm ⟨k, v, rev, rfl⟩
      exact hm.updateIf.choose_spec.choose_spec.choose_spec.2.1)
    (fun ph o r ph' o' r' hm hq ho => hm.closing (hq ho)) h hl
  exact ⟨ph, ht, hq ⟨_, _, _, rfl⟩⟩

end Holding

end SvcAuth
