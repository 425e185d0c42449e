import SvcAuth.InterleaveSolo
import SvcAuth.Service

/-! Rows and markers in one bucket. The operations of the store are run over the shared
bucket, whose keys are texts, and beside it over two maps, one by token id and one by
family id. Calls may fail and entries may expire; the results are the same. -/
namespace SvcAuth
open Interleave RevisionBucket RefreshTokenStore

section Operations

/-- An operation of `RefreshTokenStore`. -/
inductive StoreOp
  | store (token : RefreshToken)
  | findById (tokenId : Uuid)
  | markUsed (old : RefreshToken) (replacedBy : Uuid) (revision : Revision)
  | revokeFamily (familyId : Uuid)
  | isFamilyRevoked (familyId : Uuid)
  deriving DecidableEq, Repr

inductive StoreResult
  | done (r : Except StoreError Unit)
  | found (r : Except StoreError (Option (RefreshToken × Revision)))
  | revoked (answer : Bool)
  deriving DecidableEq, Repr

/-- The operation as the store carries it out. -/
def StoreOp.program (D : Deps) : StoreOp → Action StoreResult
  | .store token => do return .done (← RefreshTokenStore.store D token)
  | .findById tokenId => do return .found (← RefreshTokenStore.findById D tokenId)
  | .markUsed old replacedBy revision => do
    return .done (← RefreshTokenStore.markUsed D old replacedBy revision)
  | .revokeFamily familyId => do return .done (← RefreshTokenStore.revokeFamily D familyId)
  | .isFamilyRevoked familyId => do
    return .revoked (← RefreshTokenStore.isFamilyRevoked D familyId)

/-- The key of the entry an operation names. -/
def StoreOp.key (D : Deps) : StoreOp → KvKey
  | .store token => rowKey D token.id
  | .findById tokenId => rowKey D tokenId
  | .markUsed old _ _ => rowKey D old.id
  | .revokeFamily familyId => markerKey D familyId
  | .isFamilyRevoked familyId => markerKey D familyId

/-- What becomes of the bucket call of an operation: it is answered, it is lost on its way,
or it takes effect and the answer is lost. -/
inductive Delivery
  | answered | lost | unacknowledged
  deriving DecidableEq, Repr

namespace Delivery

def applies : Delivery → Bool
  | .lost => false
  | _ => true

/-- The caller sees the reply, or that the bucket is unavailable. -/
def reply {α : Type} (d : Delivery) (r : Except FabricError α) : Except FabricError α :=
  match d with
  | .answered => r
  | _ => .error .Unavailable

end Delivery

/-- One operation, or time that passes and entries that expire with it. -/
inductive StoreEvent
  | op (d : Delivery) (o : StoreOp)
  | pass (e : Passage)

end Operations

section Bucket

/-- The answer of the world to a call that is delivered so. -/
def World.answer (d : Delivery) (w : World) : (o : Op) → o.Reply × World
  | .utcNow => (w.clock, w)
  | .get k => (d.reply (.ok (w.read k)), w)
  | .put k v => (d.reply (.ok ()), if d.applies then w.put k v else w)
  | .updateIf k v revision =>
    if w.bucket.Current k revision then (d.reply (.ok ()), if d.applies then w.put k v else w)
    else (d.reply (.error .RevisionConflict), w)
  -- the store makes no other call
  | .nowV7 => (⟨0⟩, w)
  | .verifyIdToken _ => (.error "", w)
  | .resolve _ => (.ok none, w)

variable (D : Deps)

/-- An operation over the shared bucket. -/
def World.perform (d : Delivery) (w : World) (o : StoreOp) : StoreResult × World :=
  (o.program D).execute (World.answer d) w

def World.happen (w : World) : StoreEvent → Option StoreResult × World
  | .op d o => (some (w.perform D d o).1, (w.perform D d o).2)
  | .pass e => (none, w.pass e)

end Bucket

section Maps

/-- A store over two maps: rows by token id, markers by family id. -/
structure MapStore where
  rows : Bucket Uuid RefreshToken
  markers : Bucket Uuid RevokedFamily
  clock : ℕ

/-- One count of revisions for the writes to both maps, or a count for each. -/
inductive Numbering
  | common | separate
  deriving DecidableEq, Repr

/-- What a write to one map does to the other. -/
def Numbering.beside {K V : Type} (n : Numbering) (b : Bucket K V) : Bucket K V :=
  match n with
  | .common => b.skip
  | .separate => b

/-- The same for the result of an operation. -/
def Delivery.outcome {α : Type} (d : Delivery) (r : Except StoreError α) : Except StoreError α :=
  match d with
  | .answered => r
  | _ => .error (.Kv .Unavailable)

namespace MapStore

def initial (clock : ℕ) : MapStore := ⟨.empty, .empty, clock⟩

def putRow (n : Numbering) (m : MapStore) (row : RefreshToken) : MapStore :=
  { m with rows := m.rows.put m.clock row.id row, markers := n.beside m.markers }

def putMarker (n : Numbering) (m : MapStore) (familyId : Uuid) : MapStore :=
  { m with rows := n.beside m.rows, markers := m.markers.put m.clock familyId ⟨m.clock⟩ }

/-- An operation over the two maps. A lookup of a marker that fails answers `false`. -/
def perform (n : Numbering) (d : Delivery) (m : MapStore) : StoreOp → StoreResult × MapStore
  | .store token => (.done (d.outcome (.ok ())), if d.applies then m.putRow n token else m)
  | .findById tokenId =>
    (.found (d.outcome (.ok ((m.rows.cells tokenId).map fun c => (c.value, c.revision)))), m)
  | .markUsed old replacedBy revision =>
    if m.rows.Current old.id revision then
      (.done (d.outcome (.ok ())),
        if d.applies then
          m.putRow n { old with usedAt := some m.clock, replacedBy := some replacedBy }
        else m)
    else (.done (d.outcome (.error (.Conflict old.id))), m)
  | .revokeFamily familyId =>
    (.done (d.outcome (.ok ())), if d.applies then m.putMarker n familyId else m)
  | .isFamilyRevoked familyId =>
    (.revoked (d = .answered ∧ (m.markers.cells familyId).isSome), m)

/-- The same entries expire as in the bucket. -/
def pass (D : Deps) (m : MapStore) (e : Passage) : MapStore where
  rows := m.rows.drop fun tokenId => e.expired (rowKey D tokenId)
  markers := m.markers.drop fun familyId => e.expired (markerKey D familyId)
  clock := m.clock + e.seconds

def happen (D : Deps) (n : Numbering) (m : MapStore) : StoreEvent → Option StoreResult × MapStore
  | .op d o => (some (m.perform n d o).1, (m.perform n d o).2)
  | .pass e => (none, m.pass D e)

end MapStore

end Maps

section Results

/-- The outputs along a sequence of inputs. -/
def transcript {W I O : Type} (step : W → I → O × W) : W → List I → List O
  | _, [] => []
  | w, i :: is => (step w i).1 :: transcript step (step w i).2 is

def World.results (D : Deps) (w : World) (events : List StoreEvent) : List (Option StoreResult) :=
  transcript (World.happen D) w events

def MapStore.results (D : Deps) (n : Numbering) (m : MapStore) (events : List StoreEvent) :
    List (Option StoreResult) :=
  transcript (MapStore.happen D n) m events

/-- Other names for the revisions. -/
def StoreOp.rename (σ : Revision → Revision) : StoreOp → StoreOp
  | .markUsed old replacedBy revision => .markUsed old replacedBy (σ revision)
  | o => o

def StoreResult.rename (σ : Revision → Revision) : StoreResult → StoreResult
  | .found r => .found (r.map (Option.map fun found => (found.1, σ found.2)))
  | r => r

def StoreEvent.rename (σ : Revision → Revision) : StoreEvent → StoreEvent
  | .op d o => .op d (o.rename σ)
  | .pass e => .pass e

@[simp] theorem StoreOp.rename_id (o : StoreOp) : o.rename id = o := by
  cases o <;> rfl

@[simp] theorem StoreResult.rename_id (r : StoreResult) : r.rename id = r := by
  rcases r with _ | (_ | _ | _) | _ <;> rfl

end Results

section Performed

/-- The operation gives a row a new revision. -/
def World.writesRow (D : Deps) (d : Delivery) (w : World) : StoreOp → Bool
  | .store _ => d.applies
  | .markUsed old _ revision => d.applies ∧ w.bucket.Current (rowKey D old.id) revision
  | _ => false

variable {D : Deps} {w : World} {d : Delivery}

theorem perform_store (token : RefreshToken) : w.perform D d (.store token) =
    (.done (d.outcome (.ok ())),
      if d.applies then w.put (rowKey D token.id) (.token token) else w) := by
  rw [World.perform, StoreOp.program, store_bind]
  cases d <;> rfl

theorem perform_findById (tokenId : Uuid) : w.perform D d (.findById tokenId) =
    (.found (d.outcome (rowRead (.ok (w.read (rowKey D tokenId))))), w) := by
  rw [World.perform, StoreOp.program, findById_bind]
  cases d <;> rfl

theorem perform_markUsed (old : RefreshToken) (replacedBy : Uuid) (revision : Revision) :
    w.perform D d (.markUsed old replacedBy revision) =
      if w.bucket.Current (rowKey D old.id) revision then
        (.done (d.outcome (.ok ())),
          if d.applies then
            w.put (rowKey D old.id)
              (.token { old with usedAt := some w.clock, replacedBy := some replacedBy })
          else w)
      else (.done (d.outcome (.error (.Conflict old.id))), w) := by
  rw [World.perform, StoreOp.program, markUsed_bind]
  simp only [Prog.execute_call, World.answer]
  split
  · cases d <;> rfl
  · cases d <;> rfl

theorem perform_revokeFamily (familyId : Uuid) : w.perform D d (.revokeFamily familyId) =
    (.done (d.outcome (.ok ())),
      if d.applies then w.put (markerKey D familyId) (.revoked ⟨w.clock⟩) else w) := by
  rw [World.perform, StoreOp.program, revokeFamily_bind]
  cases d <;> rfl

theorem perform_isFamilyRevoked (familyId : Uuid) : w.perform D d (.isFamilyRevoked familyId) =
    (.revoked (d = .answered ∧ markerRead (.ok (w.read (markerKey D familyId)))), w) := by
  rw [World.perform, StoreOp.program, isFamilyRevoked_bind]
  cases d with
  | answered => simp [World.answer, Delivery.reply]
  | lost => rfl
  | unacknowledged => rfl

theorem perform_cases (o : StoreOp) : ((w.perform D d o).2 = w ∧ w.writesRow D d o = false) ∨
    ∃ v, (w.perform D d o).2 = w.put (o.key D) v := by
  cases o with
  | store token =>
    rw [perform_store]
    cases hd : d.applies with
    | false => exact .inl ⟨rfl, hd⟩
    | true => exact .inr ⟨_, rfl⟩
  | findById tokenId =>
    rw [perform_findById]
    exact .inl ⟨rfl, rfl⟩
  | markUsed old replacedBy revision =>
    rw [perform_markUsed]
    split
    · cases hd : d.applies with
      | false => exact .inl ⟨rfl, by simp [World.writesRow, hd]⟩
      | true => exact .inr ⟨_, rfl⟩
    · rename_i hstale
      exact .inl ⟨rfl, by simp [World.writesRow, hstale]⟩
  | revokeFamily familyId =>
    rw [perform_revokeFamily]
    cases d.applies with
    | false => exact .inl ⟨rfl, rfl⟩
    | true => exact .inr ⟨_, rfl⟩
  | isFamilyRevoked familyId =>
    rw [perform_isFamilyRevoked]
    exact .inl ⟨rfl, rfl⟩

theorem perform_seq (o : StoreOp) :
    w.bucket.seq + (w.writesRow D d o).toNat ≤ (w.perform D d o).2.bucket.seq := by
  rcases perform_cases (D := D) (w := w) (d := d) o with ⟨hsame, hnone⟩ | ⟨v, hput⟩
  · rw [hsame, hnone]
    exact Nat.le_refl _
  · rw [hput, World.put_seq]
    exact Nat.add_le_add_left (Bool.toNat_le _) _

theorem perform_other {o : StoreOp} {k : KvKey} (h : k ≠ o.key D) :
    (w.perform D d o).2.bucket.cells k = w.bucket.cells k := by
  rcases perform_cases (D := D) (w := w) (d := d) o with ⟨hsame, -⟩ | ⟨v, hput⟩
  · rw [hsame]
  · rw [hput]
    exact Bucket.put_other _ _ _ h

end Performed

section Executions
variable {D : Deps} {w w' : World}

theorem answers_get_iff {k : KvKey} {r : Except FabricError (Option (Entry × Revision))} :
    Answers w (.get k) r w' ↔ ∃ d, w.answer d (.get k) = (r, w') := by
  constructor
  · intro h
    cases h with
    | get => exact ⟨.answered, rfl⟩
    | getFailed => exact ⟨.lost, rfl⟩
  · rintro ⟨d, h⟩
    cases h
    cases d with
    | answered => exact .get _ _
    | lost => exact .getFailed _ _
    | unacknowledged => exact .getFailed _ _

theorem answers_put_iff {k : KvKey} {v : Entry} {r : Except FabricError Unit} :
    Answers w (.put k v) r w' ↔ ∃ d, w.answer d (.put k v) = (r, w') := by
  constructor
  · intro h
    cases h with
    | put => exact ⟨.answered, rfl⟩
    | putLost => exact ⟨.lost, rfl⟩
    | putUnacknowledged => exact ⟨.unacknowledged, rfl⟩
  · rintro ⟨d, h⟩
    cases h
    cases d with
    | answered => exact .put _ _ _
    | lost => exact .putLost _ _ _
    | unacknowledged => exact .putUnacknowledged _ _ _

theorem answer_updateIf (d : Delivery) (w : World) (k : KvKey) (v : Entry) (revision : Revision) :
    w.answer d (.updateIf k v revision) =
      if w.bucket.Current k revision then (d.reply (.ok ()), if d.applies then w.put k v else w)
      else (d.reply (.error .RevisionConflict), w) :=
  rfl

theorem answers_updateIf_iff {k : KvKey} {v : Entry} {rev : Revision} {r : Except FabricError Unit} :
    Answers w (.updateIf k v rev) r w' ↔ ∃ d, w.answer d (.updateIf k v rev) = (r, w') := by
  constructor
  · intro h
    cases h with
    | updateIf _ _ _ current => exact ⟨.answered, if_pos current⟩
    | updateIfConflict _ _ _ stale => exact ⟨.answered, if_neg stale⟩
    | updateIfUnacknowledged _ _ _ current => exact ⟨.unacknowledged, if_pos current⟩
    | updateIfLost =>
      refine ⟨.lost, ?_⟩
      rw [answer_updateIf]
      split <;> rfl
  · rintro ⟨d, h⟩
    rw [answer_updateIf] at h
    split at h
    · rename_i current
      cases h
      cases d with
      | answered => exact .updateIf _ _ _ _ current
      | lost => exact .updateIfLost _ _ _ _
      | unacknowledged => exact .updateIfUnacknowledged _ _ _ _ current
    · rename_i stale
      cases h
      cases d with
      | answered => exact .updateIfConflict _ _ _ _ stale
      | lost => exact .updateIfLost _ _ _ _
      | unacknowledged => exact .updateIfLost _ _ _ _

variable {r : StoreResult}

/-- The operation can come to this result and leave this world. -/
def StoreOp.Can (D : Deps) (o : StoreOp) (w : World) (r : StoreResult) (w' : World) : Prop :=
  ∃ tr, Prog.Ran (o.program D) tr r ∧ Trace service.answers w tr w'

theorem single_call {c : Op} {f : c.Reply → StoreResult}
    (hc : ∀ {reply w'}, Answers w c reply w' ↔ ∃ d, w.answer d c = (reply, w')) :
    (∃ tr, Prog.Ran (.call c fun reply => .ret (f reply) : Action StoreResult) tr r ∧
      Trace service.answers w tr w') ↔
      ∃ d, (.call c fun reply => .ret (f reply) : Action StoreResult).execute (World.answer d) w =
        (r, w') := by
  constructor
  · rintro ⟨tr, hran, hworlds⟩
    obtain ⟨reply, rest, rfl, h⟩ := Prog.ran_call.mp hran
    obtain ⟨rfl, rfl⟩ := Prog.ran_ret.mp h
    obtain ⟨w₁, hanswer, hnil⟩ := Trace.cons_iff.mp hworlds
    obtain rfl := Trace.nil_iff.mp hnil
    obtain ⟨d, hd⟩ := hc.mp hanswer
    exact ⟨d, by rw [Prog.execute_call, Prog.execute_ret, hd]⟩
  · rintro ⟨d, h⟩
    cases h
    exact ⟨_, .call (.ret _), .one (hc.mpr ⟨d, rfl⟩)⟩

theorem clock_call {p : ℕ → Action StoreResult} :
    (∃ tr, Prog.Ran (.call .utcNow p : Action StoreResult) tr r ∧ Trace service.answers w tr w') ↔
      ∃ tr, Prog.Ran (p w.clock) tr r ∧ Trace service.answers w tr w' := by
  constructor
  · rintro ⟨tr, hran, hworlds⟩
    obtain ⟨now, rest, rfl, h⟩ := Prog.ran_call.mp hran
    obtain ⟨w₁, hanswer, hrest⟩ := Trace.cons_iff.mp hworlds
    cases hanswer
    exact ⟨rest, h, hrest⟩
  · rintro ⟨tr, hran, hworlds⟩
    exact ⟨_, .call hran, Trace.cons_iff.mpr ⟨w, .utcNow w, hworlds⟩⟩

/-- What an operation can do among the other calls of the service is what it does under some
delivery. -/
theorem can_iff (o : StoreOp) : o.Can D w r w' ↔ ∃ d, w.perform D d o = (r, w') := by
  unfold StoreOp.Can World.perform
  cases o with
  | store token =>
    rw [StoreOp.program, store_bind]
    exact single_call answers_put_iff
  | findById tokenId =>
    rw [StoreOp.program, findById_bind]
    exact single_call answers_get_iff
  | markUsed old replacedBy revision =>
    rw [StoreOp.program, markUsed_bind]
    exact clock_call.trans (single_call answers_updateIf_iff)
  | revokeFamily familyId =>
    rw [StoreOp.program, revokeFamily_bind]
    exact clock_call.trans (single_call answers_put_iff)
  | isFamilyRevoked familyId =>
    rw [StoreOp.program, isFamilyRevoked_bind]
    exact single_call answers_get_iff

end Executions

section Encoding
variable {D : Deps} {n : Numbering} {σ : Revision → Revision} {m m' : MapStore} {w w' : World}
  {d : Delivery} {b : Bool}

/-- The bucket holds both maps, each under its prefix; `σ` are the names of the revisions of
rows in the maps. Those of markers are never seen. -/
structure MapStore.Encoded (D : Deps) (σ : Revision → Revision) (m : MapStore) (w : World) :
    Prop where
  rows : m.rows.Relocated (rowKey D) .token (fun r s => r = σ s) w.bucket
  markers : m.markers.Relocated (markerKey D) .revoked (fun _ _ => True) w.bucket
  clock : m.clock = w.clock

/-- What an operation does to the bucket and to the maps. -/
inductive Together (D : Deps) (n : Numbering) (m : MapStore) (w : World) :
    Bool → MapStore → World → Prop
  | idle : Together D n m w false m w
  | row (row : RefreshToken) :
      Together D n m w true (m.putRow n row) (w.put (rowKey D row.id) (.token row))
  | marker (familyId : Uuid) : Together D n m w false (m.putMarker n familyId)
      (w.put (markerKey D familyId) (.revoked ⟨w.clock⟩))

namespace MapStore.Encoded

theorem initial (clock : ℕ) : (MapStore.initial clock).Encoded D σ (.initial clock) :=
  ⟨Bucket.relocated_empty, Bucket.relocated_empty, rfl⟩

theorem current_iff (h : m.Encoded D σ w) (hσ : Function.Injective σ) (tokenId : Uuid)
    (revision : Revision) : m.rows.Current tokenId (σ revision) ↔
      w.bucket.Current (rowKey D tokenId) revision := by
  refine h.rows.current_iff ?_ tokenId
  rintro r s rfl
  exact hσ.eq_iff

/-- A row is found in the bucket as it is in its map. -/
theorem found (h : m.Encoded D σ w) (tokenId : Uuid) :
    ∃ found, rowRead (.ok (w.read (rowKey D tokenId))) = .ok found ∧
      ((m.rows.cells tokenId).map fun c => (c.value, c.revision)) =
        found.map fun r => (r.1, σ r.2) := by
  unfold World.read
  have hcell := h.rows tokenId
  generalize m.rows.cells tokenId = x, w.bucket.cells (rowKey D tokenId) = y at hcell ⊢
  cases hcell with
  | none => exact ⟨none, rfl, rfl⟩
  | @some c e hcell =>
    refine ⟨some (c.value, e.revision), ?_, ?_⟩
    · simp [hcell.value, rowRead]
    · simp [hcell.revision]

theorem marked (h : m.Encoded D σ w) (familyId : Uuid) :
    markerRead (.ok (w.read (markerKey D familyId))) = (m.markers.cells familyId).isSome := by
  unfold World.read
  have hcell := h.markers familyId
  generalize m.markers.cells familyId = x, w.bucket.cells (markerKey D familyId) = y at hcell ⊢
  cases hcell with
  | none => rfl
  | some hcell => simp [hcell.value, markerRead]

theorem pass (h : m.Encoded D σ w) (e : Passage) : (m.pass D e).Encoded D σ (w.pass e) where
  rows := h.rows.drop e.expired
  markers := h.markers.drop e.expired
  clock := by rw [World.pass_clock, ← h.clock, MapStore.pass]

theorem together (h : m.Encoded D σ w) (hσ : Function.Injective σ) (n : Numbering) (d : Delivery)
    (o : StoreOp) : (m.perform n d (o.rename σ)).1 = (w.perform D d o).1.rename σ ∧
      Together D n m w (w.writesRow D d o) (m.perform n d (o.rename σ)).2 (w.perform D d o).2 := by
  cases o with
  | store token =>
    rw [perform_store]
    refine ⟨rfl, ?_⟩
    cases hd : d.applies with
    | false => simpa [StoreOp.rename, MapStore.perform, World.writesRow, hd] using .idle
    | true => simpa [StoreOp.rename, MapStore.perform, World.writesRow, hd] using .row token
  | findById tokenId =>
    rw [perform_findById]
    obtain ⟨found, hread, hmap⟩ := h.found tokenId
    refine ⟨?_, .idle⟩
    rw [hread]
    simp only [StoreOp.rename, MapStore.perform, hmap]
    cases d <;> rfl
  | markUsed old replacedBy revision =>
    rw [perform_markUsed]
    simp only [StoreOp.rename, MapStore.perform, h.current_iff hσ, World.writesRow, h.clock]
    split
    · rename_i hcurrent
      refine ⟨rfl, ?_⟩
      cases hd : d.applies with
      | false => simpa using .idle
      | true =>
        simpa [hcurrent] using .row
          { old with usedAt := some w.clock, replacedBy := some replacedBy }
    · rename_i hstale
      refine ⟨rfl, ?_⟩
      simpa [hstale] using .idle
  | revokeFamily familyId =>
    rw [perform_revokeFamily]
    refine ⟨rfl, ?_⟩
    cases hd : d.applies with
    | false => simpa [StoreOp.rename, MapStore.perform, World.writesRow, hd] using .idle
    | true => simpa [StoreOp.rename, MapStore.perform, World.writesRow, hd] using .marker familyId
  | isFamilyRevoked familyId =>
    rw [perform_isFamilyRevoked, h.marked]
    exact ⟨rfl, .idle⟩

end MapStore.Encoded

namespace Together

theorem encoded (h : Together D n m w b m' w') (he : m.Encoded D σ w)
    (hnext : b = true → m.rows.seq + 1 = σ (w.bucket.seq + 1)) : m'.Encoded D σ w' := by
  cases h with
  | idle => exact he
  | row row =>
    refine ⟨?_, ?_, he.clock⟩
    · rw [World.put, ← he.clock]
      exact he.rows.put (fun _ _ => (rowKey_inj D).mp) (hnext rfl) m.clock row.id row
    · have hmarkers := he.markers.beside (fun f => markerKey_ne_rowKey D f row.id) w.clock
        (Entry.token row)
      cases n <;> exact hmarkers
  | marker familyId =>
    refine ⟨?_, ?_, he.clock⟩
    · have hrows := he.rows.beside (fun t => rowKey_ne_markerKey D t familyId) w.clock
        (Entry.revoked ⟨w.clock⟩)
      cases n <;> exact hrows
    · rw [World.put, MapStore.putMarker, ← he.clock]
      exact he.markers.put (fun _ _ => (markerKey_inj D).mp) trivial m.clock familyId ⟨m.clock⟩

theorem common_seq (h : Together D .common m w b m' w') (hseq : m.rows.seq = w.bucket.seq) :
    m'.rows.seq = w'.bucket.seq := by
  cases h with
  | idle => exact hseq
  | row => exact congrArg (· + 1) hseq
  | marker => exact congrArg (· + 1) hseq

theorem separate_seq (h : Together D .separate m w b m' w') :
    m'.rows.seq = m.rows.seq + b.toNat := by
  cases h <;> rfl

end Together

end Encoding

section Runs
variable {D : Deps}

theorem common_results {m : MapStore} {w : World} (h : m.Encoded D id w)
    (hseq : m.rows.seq = w.bucket.seq) (events : List StoreEvent) :
    m.results D .common events = w.results D events := by
  induction events generalizing m w with
  | nil => rfl
  | cons event events ih =>
    cases event with
    | op d o =>
      obtain ⟨hresult, hboth⟩ := h.together Function.injective_id .common d o
      rw [StoreOp.rename_id] at hresult hboth
      rw [StoreResult.rename_id] at hresult
      have hrest := ih (hboth.encoded h fun _ => congrArg (· + 1) hseq) (hboth.common_seq hseq)
      exact congrArg₂ List.cons (congrArg some hresult) hrest
    | pass e => exact congrArg (none :: ·) (ih (h.pass e) hseq)

/-- The revisions that rows get along a sequence of events. -/
def World.rowRevisions (D : Deps) : World → List StoreEvent → List Revision
  | _, [] => []
  | w, .op d o :: events =>
    let rest := rowRevisions D (w.perform D d o).2 events
    if w.writesRow D d o then (w.bucket.seq + 1) :: rest else rest
  | w, .pass e :: events => rowRevisions D (w.pass e) events

/-- With a count for each map the results are the same under names that number the rows. -/
theorem separate_results {m : MapStore} {w : World} {σ : Revision → Revision}
    (hσ : Function.Injective σ) (h : m.Encoded D σ w) (events : List StoreEvent)
    (hnames : (w.rowRevisions D events).map σ =
      List.range' (m.rows.seq + 1) (w.rowRevisions D events).length) :
    m.results D .separate (events.map (·.rename σ)) =
      (w.results D events).map (Option.map (·.rename σ)) := by
  induction events generalizing m w with
  | nil => rfl
  | cons event events ih =>
    cases event with
    | op d o =>
      obtain ⟨hresult, hboth⟩ := h.together hσ .separate d o
      have hseq := hboth.separate_seq
      unfold World.rowRevisions at hnames
      cases hb : w.writesRow D d o with
      | true =>
        simp only [hb, if_true, List.map_cons, List.length_cons, List.range'_succ,
          List.cons.injEq] at hnames
        rw [hb] at hboth hseq
        have hrest := ih (hboth.encoded h fun _ => hnames.1.symm) (by rw [hseq]; exact hnames.2)
        exact congrArg₂ List.cons (congrArg some hresult) hrest
      | false =>
        simp only [hb, Bool.false_eq_true, if_false] at hnames
        rw [hb] at hboth hseq
        have hrest := ih (hboth.encoded h nofun) (by rw [hseq]; exact hnames)
        exact congrArg₂ List.cons (congrArg some hresult) hrest
    | pass e => exact congrArg (none :: ·) (ih (h.pass e) hnames)

theorem rowRevisions_fresh (w : World) (events : List StoreEvent) :
    (∀ r ∈ w.rowRevisions D events, w.bucket.seq < r) ∧ (w.rowRevisions D events).Nodup := by
  induction events generalizing w with
  | nil => exact ⟨by simp [World.rowRevisions], List.nodup_nil⟩
  | cons event events ih =>
    cases event with
    | op d o =>
      obtain ⟨hlater, hnodup⟩ := ih (w.perform D d o).2
      have hseq := perform_seq (D := D) (w := w) (d := d) o
      unfold World.rowRevisions
      cases hb : w.writesRow D d o with
      | true =>
        rw [hb, Bool.toNat_true] at hseq
        have hnew : ∀ r ∈ (w.perform D d o).2.rowRevisions D events, w.bucket.seq + 1 < r :=
          fun r hr => Nat.lt_of_le_of_lt hseq (hlater r hr)
        refine ⟨?_, List.nodup_cons.mpr ⟨fun hr => Nat.lt_irrefl _ (hnew _ hr), hnodup⟩⟩
        intro r hr
        rcases List.mem_cons.mp hr with rfl | hr
        · exact Nat.lt_succ_self _
        · exact Nat.lt_of_succ_lt (hnew r hr)
      | false =>
        rw [hb] at hseq
        exact ⟨fun r hr => Nat.lt_of_le_of_lt hseq (hlater r hr), hnodup⟩
    | pass e => exact ih (w.pass e)

theorem exists_names {rs : List ℕ} (h : rs.Nodup) :
    ∃ σ : ℕ → ℕ, Function.Injective σ ∧ rs.map σ = List.range' 1 rs.length := by
  refine ⟨fun r => if r ∈ rs then rs.idxOf r + 1 else rs.length + 1 + r, ?_, ?_⟩
  · intro r s heq
    simp only at heq
    split at heq
    · rename_i hr
      have hplace := List.idxOf_lt_length_of_mem hr
      split at heq
      · exact (List.idxOf_inj hr).mp (Nat.succ.inj heq)
      · omega
    · split at heq
      · rename_i hs
        have hplace := List.idxOf_lt_length_of_mem hs
        omega
      · omega
  · refine List.ext_getElem (by simp) fun i hi _ => ?_
    simp [h.idxOf_getElem, Nat.add_comm]

end Runs

/-- Rows and markers in one bucket are two independent maps. Whatever operations are made and
whatever becomes of their calls, the results are those of two maps with one count of
revisions, and those of two maps with a count each, but for the names of the revisions.
Revoking a family shows in no lookup of a row, and an operation leaves every entry but the
one it names. -/
theorem flat_store_splits (D : Deps) (clock : ℕ) (events : List StoreEvent) :
    (MapStore.initial clock).results D .common events = (World.initial clock).results D events ∧
    (∃ σ : Revision → Revision, Function.Injective σ ∧
      (MapStore.initial clock).results D .separate (events.map (·.rename σ)) =
        ((World.initial clock).results D events).map (Option.map (·.rename σ))) ∧
    (∀ (w : World) (d d' : Delivery) (familyId tokenId : Uuid),
      (((w.perform D d (.revokeFamily familyId)).2).perform D d' (.findById tokenId)).1 =
        (w.perform D d' (.findById tokenId)).1) ∧
    (∀ (w : World) (d : Delivery) (o : StoreOp) (k : KvKey), k ≠ o.key D →
      (w.perform D d o).2.bucket.cells k = w.bucket.cells k) := by
  refine ⟨common_results (.initial clock) rfl events, ?_, ?_, fun w d o k => perform_other⟩
  · obtain ⟨σ, hσ, hnames⟩ := exists_names (rowRevisions_fresh (D := D) (.initial clock) events).2
    exact ⟨σ, hσ, separate_results hσ (.initial clock) events hnames⟩
  · intro w d d' familyId tokenId
    rw [perform_findById, perform_findById, World.read, World.read,
      perform_other (o := .revokeFamily familyId) (rowKey_ne_markerKey D tokenId familyId)]

end SvcAuth
