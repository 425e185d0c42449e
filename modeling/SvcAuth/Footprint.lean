import SvcAuth.InterleaveSolo
import SvcAuth.Isolation
import Mathlib.Data.Set.Card

/-! What one client can make the service spend. A request makes at most fourteen calls, five
of them to the bucket, and what the bucket holds is paid for by requests that verified an
id_token or a refresh token. -/
namespace SvcAuth
open Interleave RevisionBucket RefreshTokenStore

section Counting

theorem ncard_le_owners {α β : Type} {s : Set α} {owners : Set β} (owns : β → α → Prop)
    (hfinite : owners.Finite) (howned : ∀ a ∈ s, ∃ b ∈ owners, owns b a)
    (hone : ∀ b a a', owns b a → owns b a' → a = a') : s.Finite ∧ s.ncard ≤ owners.ncard := by
  rcases s.eq_empty_or_nonempty with rfl | ⟨a₀, ha₀⟩
  · simp
  obtain ⟨b₀, -⟩ := howned a₀ ha₀
  have : Nonempty β := ⟨b₀⟩
  choose! owner hmem howns using howned
  have hinj : Set.InjOn owner s := by
    intro a ha a' ha' heq
    apply hone (owner a) a a' (howns a ha)
    rw [heq]
    exact howns a' ha'
  exact ⟨.of_injOn hmem hinj hfinite, Set.ncard_le_ncard_of_injOn owner hmem hinj hfinite⟩

end Counting

section Budget

/-- A call to the bucket. -/
def Op.toBucket : Op → ℕ
  | .get _ | .put _ _ | .updateIf _ _ _ => 1
  | _ => 0

namespace Phase

/-- The calls that may still follow a phase. -/
def callsLeft : Phase → ℕ
  | .accessVerify _ _ _ => 14
  | .verify _ _ => 13
  | .find _ _ _ => 12
  | .lookup _ _ _ => 11
  | .access _ _ _ => 10
  | .mint _ _ _ _ => 9
  | .refresh _ _ _ _ _ => 8
  | .created _ _ _ _ _ _ => 7
  | .store _ _ => 6
  | .stamp _ _ => 5
  | .mark _ _ _ => 4
  | .revokeStamp _ _ => 3
  | .revoke _ _ _ => 2
  | .settle _ _ | .reply _ _ | .bearer _ => 1
  | .logoutVerify _ => 4
  | .logoutFind _ => 3
  | .logoutStamp _ => 2
  | .logoutRevoke _ _ => 1
  | .login _ _ => 8
  | .loginAccess _ _ => 7
  | .loginMint _ _ _ => 6
  | .loginRefresh _ _ _ _ => 5
  | .loginFamily _ _ _ _ _ => 4
  | .loginCreated _ _ _ _ _ _ => 3
  | .loginStore _ _ => 2
  | .done _ _ _ | .replied _ _ | .closed _ | .logoutDone _ => 0

/-- The calls to the bucket that may still follow a phase. -/
def bucketLeft : Phase → ℕ
  | .accessVerify _ _ _ | .verify _ _ | .find _ _ _ => 5
  | .lookup _ _ _ => 4
  | .access _ _ _ | .mint _ _ _ _ | .refresh _ _ _ _ _ | .created _ _ _ _ _ _ | .store _ _ => 3
  | .stamp _ _ | .mark _ _ _ => 2
  | .revokeStamp _ _ | .revoke _ _ _ => 1
  | .logoutVerify _ | .logoutFind _ => 2
  | .logoutStamp _ | .logoutRevoke _ _ => 1
  | .login _ _ | .loginAccess _ _ | .loginMint _ _ _ | .loginRefresh _ _ _ _
  | .loginFamily _ _ _ _ _ | .loginCreated _ _ _ _ _ _ | .loginStore _ _ => 1
  | _ => 0

end Phase

variable {D : Deps} {S : AppState}

theorem Starts.callsLeft {q : Request} {ph : Phase} (h : Starts S q ph) : ph.callsLeft ≤ 14 := by
  cases h <;> simp [Phase.callsLeft]

theorem Starts.bucketLeft {q : Request} {ph : Phase} (h : Starts S q ph) : ph.bucketLeft ≤ 5 := by
  cases h <;> simp [Phase.bucketLeft]

theorem Moves.callsLeft {ph ph' : Phase} {e : Calls.Event} (h : Moves D S ph e ph') :
    ph'.callsLeft + 1 ≤ ph.callsLeft := by
  cases h <;> simp [Phase.callsLeft]

theorem Moves.bucketLeft {ph ph' : Phase} {e : Calls.Event} (h : Moves D S ph e ph') :
    ph'.bucketLeft + e.1.toBucket ≤ ph.bucketLeft := by
  cases h <;> simp [Phase.bucketLeft, Op.toBucket]

end Budget

section Payers

/-- Request `t` verified an id_token. -/
def Identified (ls : List Event) (t : ℕ) : Prop :=
  ∃ idToken claims, .call t (.verifyIdToken idToken) (.ok claims) ∈ ls

/-- Request `t` came with a refresh token that verified. -/
def Presented (D : Deps) (S : AppState) (ls : List Event) (t : ℕ) : Prop :=
  ∃ email id, Verified D S ls t email id

/-- The keys under which the bucket holds something. -/
def World.keys (w : World) : Set KvKey := {k | w.bucket.cells k ≠ none}

theorem World.mem_keys {w : World} {k : KvKey} {v : Entry × Revision} (h : w.read k = some v) :
    k ∈ w.keys := by
  obtain ⟨cell, hcell, -⟩ := World.read_eq_some h
  simp [World.keys, hcell]

variable {D : Deps} {S : AppState} {G : Assumption} {clock : ℕ} {ls : List Event}
  {c : PhaseState} {t : ℕ} {f : Uuid}

theorem callers_finite (ls : List Event) : {t | ∃ o r, .call t o r ∈ ls}.Finite := by
  induction ls with
  | nil => simp
  | cons l ls ih =>
    have hfirst : {t | ∃ o r, .call t o r = l}.Finite := by
      apply Set.Subsingleton.finite
      rintro t ⟨o, r, rfl⟩ t' ⟨o', r', heq⟩
      cases heq
      rfl
    apply (hfirst.union ih).subset
    rintro t ⟨o, r, hl⟩
    rcases List.mem_cons.mp hl with heq | hrest
    · exact .inl ⟨o, r, heq⟩
    · exact .inr ⟨o, r, hrest⟩

theorem identified_finite (ls : List Event) : {t | Identified ls t}.Finite :=
  (callers_finite ls).subset fun _ ⟨_, _, hl⟩ => ⟨_, _, hl⟩

theorem presented_finite (ls : List Event) : {t | Presented D S ls t}.Finite :=
  (callers_finite ls).subset fun _ ⟨_, _, _, _, _, _, _, _, hl, _⟩ => ⟨_, _, hl⟩

theorem Found.presented (h : PhaseRun D S G clock ls c) {x : Held} (hx : Found D ls t x) :
    Presented D S ls t := by
  obtain ⟨email, hverified⟩ := h.lookup_verified hx
  exact ⟨email, _, hverified⟩

theorem Touches.vouched (h : PhaseRun D S G clock ls c) (ht : Touches D ls t f) :
    Identified ls t ∨ Presented D S ls t := by
  rcases ht.found h with ⟨email, -, ⟨idToken, hl⟩, -⟩ | ⟨x, hx, -⟩
  · exact .inl ⟨idToken, _, hl⟩
  · exact .inr (hx.presented h)

theorem PhaseRun.write_touches (h : PhaseRun D S G clock ls c) {o : Op} {r : o.Reply}
    (hl : .call t o r ∈ ls) (hw : o.write ≠ none) : ∃ f, Touches D ls t f := by
  obtain ⟨before, after, e, e', -, -, hstep, -⟩ := Trace.at_label h hl
  obtain ⟨ph, ph', -, hm, -⟩ := step_call hstep.1
  cases o with
  | put k v =>
    cases v with
    | token row =>
      obtain ⟨rfl, -⟩ := hm.put_pending
      exact ⟨row.familyId, .inl ⟨row, rfl, .inl ⟨r, hl⟩⟩⟩
    | revoked m =>
      obtain ⟨x, rfl, -⟩ := hm.put_revoked
      exact ⟨x.row.familyId, .inr ⟨m, r, hl⟩⟩
  | updateIf k v rev =>
    obtain ⟨x, y, now, -, -, rfl, rfl, rfl⟩ := hm.updateIf
    exact ⟨_, .inl ⟨y.replaced now, rfl, .inr ⟨_, r, hl⟩⟩⟩
  | _ => exact absurd rfl hw

end Payers

section Holdings
variable {D : Deps} {S : AppState} {G : Assumption} {clock : ℕ} {ls : List Event}
  {c : PhaseState} {t : ℕ} {f : Uuid}

/-- Request `t` put a marker under this key. -/
def Flagged (ls : List Event) (t : ℕ) (k : KvKey) : Prop :=
  ∃ m r, .call t (.put k (.revoked m)) r ∈ ls

theorem Found.only (h : PhaseRun D S G clock ls c) {x y : Held} (hx : Found D ls t x)
    (hy : Found D ls t y) : x = y := by
  obtain ⟨ph, ht, hheld⟩ := hx.held h
  obtain ⟨ph', ht', hheld'⟩ := hy.held h
  rw [ht] at ht'
  cases ht'
  rw [hheld] at hheld'
  exact Option.some.inj hheld'

theorem Flagged.only (h : PhaseRun D S G clock ls c) {k k' : KvKey} (hk : Flagged ls t k)
    (hk' : Flagged ls t k') : k = k' := by
  obtain ⟨m, r, hl⟩ := hk
  obtain ⟨m', r', hl'⟩ := hk'
  obtain ⟨x, hx, rfl⟩ := flag_found h hl
  obtain ⟨y, hy, rfl⟩ := flag_found h hl'
  rw [hx.only h hy]

theorem PhaseRun.flagged (h : PhaseRun D S G clock ls c) :
    Throughout (fun ls k v => ∀ m, v = .revoked m → ∃ t, Flagged ls t k) ls c := by
  refine h.throughout (fun ls l k v hp m hv => ?_) ?_
  · obtain ⟨t, m', r, hl⟩ := hp m hv
    exact ⟨t, m', r, log_grows ls l hl⟩
  · rintro ls c t ph o r ph' k v prior ih ht hm hw m rfl
    cases o with
    | put k' v' =>
      cases hw
      exact ⟨t, m, r, List.mem_concat_self⟩
    | updateIf k' v' rev =>
      cases hw
      obtain ⟨x, y, now, -, -, -, hv, -⟩ := hm.updateIf
      cases hv
    | _ => cases hw

/-- The rows in the bucket are no more than the requests that showed a token, and the markers
no more than those that showed a refresh token. -/
theorem PhaseRun.keys_le (h : PhaseRun D S G clock ls c) : c.world.keys.Finite ∧
    c.world.keys.ncard ≤
      {t | Identified ls t}.ncard + 2 * {t | Presented D S ls t}.ncard := by
  have hvouched : ({t | Identified ls t} ∪ {t | Presented D S ls t}).Finite :=
    (identified_finite ls).union (presented_finite ls)
  have hrows : {k | ∃ cell row, c.world.bucket.cells k = some cell ∧ cell.value = .token row}.Finite ∧
      {k | ∃ cell row, c.world.bucket.cells k = some cell ∧ cell.value = .token row}.ncard ≤
        ({t | Identified ls t} ∪ {t | Presented D S ls t}).ncard := by
    apply ncard_le_owners (fun t k => ∃ row, Stored D ls t row ∧ k = rowKey D row.id) hvouched
    · rintro k ⟨cell, row, hcell, hv⟩
      have hkey := h.wellKeyed.cells k cell hcell
      rw [hv] at hkey
      obtain ⟨t, hstored⟩ := h.issued.cells k cell hcell row hv
      have htouches : Touches D ls t row.familyId := .inl ⟨row.issued, rfl, .inl hstored⟩
      exact ⟨t, htouches.vouched h, _, hstored, hkey⟩
    · rintro t k k' ⟨row, hs, rfl⟩ ⟨row', hs', rfl⟩
      rw [hs.only h hs']
  have hmarkers : {k | ∃ cell m, c.world.bucket.cells k = some cell ∧ cell.value = .revoked m}.Finite ∧
      {k | ∃ cell m, c.world.bucket.cells k = some cell ∧ cell.value = .revoked m}.ncard ≤
        {t | Presented D S ls t}.ncard := by
    apply ncard_le_owners (Flagged ls) (presented_finite ls)
    · rintro k ⟨cell, m, hcell, hv⟩
      obtain ⟨t, hflagged⟩ := h.flagged.cells k cell hcell m hv
      obtain ⟨m', r, hl⟩ := hflagged
      obtain ⟨x, hx, -⟩ := flag_found h hl
      exact ⟨t, hx.presented h, m', r, hl⟩
    · exact fun t k k' hk hk' => hk.only h hk'
  have hsplit : c.world.keys =
      {k | ∃ cell row, c.world.bucket.cells k = some cell ∧ cell.value = .token row} ∪
      {k | ∃ cell m, c.world.bucket.cells k = some cell ∧ cell.value = .revoked m} := by
    ext k
    simp only [World.keys, Set.mem_ofPred_eq, Set.mem_union]
    constructor
    · intro hk
      obtain ⟨cell, hcell⟩ := Option.ne_none_iff_exists'.mp hk
      cases hv : cell.value with
      | token row => exact .inl ⟨cell, row, hcell, hv⟩
      | revoked m => exact .inr ⟨cell, m, hcell, hv⟩
    · rintro (⟨cell, row, hcell, -⟩ | ⟨cell, m, hcell, -⟩) <;> simp [hcell]
  rw [hsplit]
  refine ⟨hrows.1.union hmarkers.1, ?_⟩
  calc _ ≤ _ := Set.ncard_union_le _ _
    _ ≤ ({t | Identified ls t} ∪ {t | Presented D S ls t}).ncard +
        {t | Presented D S ls t}.ncard := add_le_add hrows.2 hmarkers.2
    _ ≤ _ := by
      have hunion := Set.ncard_union_le {t | Identified ls t} {t | Presented D S ls t}
      omega

end Holdings

/-- What the service spends is bounded, in every run. No request makes more than fourteen
calls, nor more than five to the bucket. Only requests that verified an id_token or a refresh
token write, and the bucket never holds more keys than one for each verified login and two for
each request with a verified refresh token. -/
theorem footprint_bounded (D : Deps) (S : AppState) (clock : ℕ) (ls : List Event)
    (c : ServiceState) (h : Run D S Unrestricted clock ls c) :
    (∀ t, (callsOf t ls).length ≤ 14 ∧ spent Op.toBucket (callsOf t ls) ≤ 5) ∧
    (∀ t o r, .call t o r ∈ ls → o.write ≠ none → Identified ls t ∨ Presented D S ls t) ∧
    c.world.keys.Finite ∧ c.world.keys.ncard ≤
      {t | Identified ls t}.ncard + 2 * {t | Presented D S ls t}.ncard := by
  obtain ⟨d, hd, hm⟩ := Segment.phases (mirrors_initial _) h
  refine ⟨fun t => ⟨?_, ?_⟩, ?_, ?_⟩
  · rw [← spent_one]
    exact Trace.spent_le (fun q => (starts D S q).callsLeft)
      (fun ph o k r hv => (moves_of_view D S hv r).callsLeft) hd t
  · exact Trace.spent_le (fun q => (starts D S q).bucketLeft)
      (fun ph o k r hv => (moves_of_view D S hv r).bucketLeft) hd t
  · intro t o r hl hw
    obtain ⟨f, htouches⟩ := PhaseRun.write_touches hd hl hw
    exact htouches.vouched hd
  · rw [hm.1]
    exact PhaseRun.keys_le hd

/-- After a login and a rotation the rows of tokens 1 and 4 are there, within the bound. -/
theorem footprint_bounded_sample : ∃ ls c,
    Run Sample.deps Sample.state Unrestricted Sample.moment ls c ∧
    rowKey Sample.deps (serial 1) ∈ c.world.keys ∧ rowKey Sample.deps (serial 4) ∈ c.world.keys ∧
    (callsOf 1 ls).length ≤ 14 ∧ c.world.keys.ncard ≤ {t | Identified ls t}.ncard +
      2 * {t | Presented Sample.deps Sample.state ls t}.ncard := by
  obtain ⟨c, hc, hm⟩ := PhaseSegment.service (mirrors_initial _)
    (rotation_run Sample.deps Sample.state Sample.moment permits_unrestricted Sample.live)
  have hbounds := footprint_bounded _ _ _ _ _ hc
  refine ⟨_, c, hc, ?_, ?_, (hbounds.1 1).1, hbounds.2.2.2⟩
  · rw [hm.1]
    exact World.mem_keys (rotated_used Sample.deps Sample.moment)
  · rw [hm.1]
    exact World.mem_keys (rotated_second Sample.deps Sample.moment)

end SvcAuth
