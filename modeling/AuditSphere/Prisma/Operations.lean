import AuditSphere.Prisma.TenantExtension
import AuditSphere.Theory.Table

/-!
# The writes of a tenant

What a Prisma operation does to the rows of its model (`exec`), and what it can do
when its arguments have been through `applyTenantScope` (`exec_scoped`).

A row is its tenant and the rest of its columns; its key stands for the row
itself, not for the column `id`, so that an update may change any column. What
Prisma and the database add is a parameter, `Engine`: the meaning of the filters,
what the data of other columns do, and which states satisfy the constraints.
Writes nested in the data, to rows of other models, are not part of it.
-/

namespace AuditSphere.Prisma

open Theory

/-- A row of a model: the column `tenantId` and the others. -/
structure Row (β : Type) where
  /-- The tenant of the row; null for shared content. -/
  tenantId : Option Uuid
  /-- The other columns. -/
  body : β
  deriving DecidableEq

/-- The tenants there are, and the rows of one model. -/
structure Store (β : Type) where
  /-- The ids of the tenants. -/
  tenants : List Uuid
  /-- The rows. -/
  rows : Table ℕ (Row β)

/-- How an operation fails. -/
inductive PrismaError where
  /-- The arguments are not ones the client takes. -/
  | validation
  /-- A required record was not found. -/
  | notFound
  /-- A constraint of the database is violated. -/
  | constraint
  deriving DecidableEq

/-- What Prisma and the database do with what the extension does not look at. -/
structure Engine (φ δ β : Type) where
  /-- The meaning of a filter in a state. -/
  sat : Store β → φ → ℕ × Row β → Truth
  /-- The columns of a new row. -/
  init : δ → β
  /-- The columns of an updated row. -/
  assign : δ → β → β
  /-- The constraints of the database. -/
  admits : Store β → Bool

variable {φ δ κ β : Type}

/-- The row is one that the `where` selects. -/
def Engine.selects (E : Engine φ δ β) (s : Store β) (filter : Option (Where φ)) (i : ℕ) (r : Row β) : Bool :=
  (filter.getD {}).eval (fun e => e.2.tenantId) (E.sat s) (i, r) = .yes

/-- What data write to the tenant of a row, if anything, and the tenants afterwards.
Only a shared model takes a null tenant, and no data may write both keys. -/
def writtenTenant (model : Model) (s : Store β) (d : Data δ) :
    Except PrismaError (Option (Option Uuid) × List Uuid) :=
  match d.tenantId, d.tenant with
  | none, none => .ok (none, s.tenants)
  | some none, none => if model ∈ sharedModels then .ok (some none, s.tenants) else .error .validation
  | some (some t), none => .ok (some (some t), s.tenants)
  | none, some (.connect t) => if t ∈ s.tenants then .ok (some (some t), s.tenants) else .error .notFound
  | none, some (.create t) => .ok (some (some t), t :: s.tenants)
  | none, some .disconnect => if model ∈ sharedModels then .ok (some none, s.tenants) else .error .validation
  | some _, some _ => .error .validation

/-- Insert one row. A tenant model requires a tenant. -/
def insertRow (E : Engine φ δ β) (model : Model) (s : Store β) (d : Data δ) : Except PrismaError (Store β) :=
  match writtenTenant model s d with
  | .error e => .error e
  | .ok (none, ts) =>
    if model ∈ sharedModels then .ok ⟨ts, s.rows.add ⟨none, E.init d.fields⟩⟩ else .error .validation
  | .ok (some t, ts) => .ok ⟨ts, s.rows.add ⟨t, E.init d.fields⟩⟩

/-- Insert rows one after another; their data are columns only. -/
def insertMany (E : Engine φ δ β) (model : Model) : Store β → List (Data δ) → Except PrismaError (Store β)
  | s, [] => .ok s
  | s, d :: ds => if d.tenant.isSome then .error .validation else
    match insertRow E model s d with
    | .error e => .error e
    | .ok s' => insertMany E model s' ds

/-- `createMany` takes one object as well as an array. -/
def createMany (E : Engine φ δ β) (model : Model) (s : Store β) :
    Option (OneOrMany (Data δ)) → Except PrismaError (Store β)
  | some (.one d) => insertMany E model s [d]
  | some (.many ds) => insertMany E model s ds
  | none => .error .validation

/-- Write data to the selected rows. -/
def updateRows (E : Engine φ δ β) (model : Model) (s : Store β) (p : ℕ → Row β → Bool) (d : Data δ) :
    Except PrismaError (Store β) :=
  match writtenTenant model s d with
  | .error e => .error e
  | .ok (t, ts) => .ok ⟨ts, s.rows.modify p fun r => ⟨t.getD r.tenantId, E.assign d.fields r.body⟩⟩

/-- The row that the `where` of a single-row operation selects. Such a `where`
contains a unique key, so there is at most one. -/
def target (E : Engine φ δ β) (s : Store β) (filter : Option (Where φ)) : Option (ℕ × Row β) :=
  s.rows.first (E.selects s filter)

/-- `update`: one row is required. -/
def updateOne (E : Engine φ δ β) (model : Model) (s : Store β) (filter : Option (Where φ)) :
    Option (OneOrMany (Data δ)) → Except PrismaError (Store β)
  | some (.one d) => match target E s filter with
    | some (i, _) => updateRows E model s (fun j _ => j = i) d
    | none => .error .notFound
  | _ => .error .validation

/-- `updateMany`: the data are columns only. -/
def updateMany (E : Engine φ δ β) (model : Model) (s : Store β) (filter : Option (Where φ)) :
    Option (OneOrMany (Data δ)) → Except PrismaError (Store β)
  | some (.one d) =>
    if d.tenant.isSome then .error .validation else updateRows E model s (E.selects s filter) d
  | _ => .error .validation

/-- `upsert`: update the row if there is one, else insert it. -/
def upsertOne (E : Engine φ δ β) (model : Model) (s : Store β) (filter : Option (Where φ)) :
    Option (OneOrMany (Data δ)) → Option (Data δ) → Except PrismaError (Store β)
  | some (.one c), some u => match target E s filter with
    | some (i, _) => updateRows E model s (fun j _ => j = i) u
    | none => insertRow E model s c
  | _, _ => .error .validation

/-- What the statements of an operation make of the rows. -/
def statements (E : Engine φ δ β) (model : Model) (operation : Operation) (a : Args φ δ κ) (s : Store β) :
    Except PrismaError (Store β) :=
  match operation with
  | .create => match a.data with
    | some (.one d) => insertRow E model s d
    | _ => .error .validation
  | .createMany | .createManyAndReturn => createMany E model s a.data
  | .update => updateOne E model s a.filter a.data
  | .updateMany | .updateManyAndReturn => updateMany E model s a.filter a.data
  | .delete => match target E s a.filter with
    | some (i, _) => .ok { s with rows := s.rows.remove fun j _ => j = i }
    | none => .error .notFound
  | .deleteMany => .ok { s with rows := s.rows.remove (E.selects s a.filter) }
  | .upsert => upsertOne E model s a.filter a.create a.update
  | _ => .ok s

/-- Run an operation: all of it, or nothing if a constraint is violated in the end. -/
def exec (E : Engine φ δ β) (model : Model) (operation : Operation) (a : Args φ δ κ) (s : Store β) :
    Except PrismaError (Store β) :=
  match statements E model operation a s with
  | .error e => .error e
  | .ok s' => if E.admits s' then .ok s' else .error .constraint

/-! ### What a scoped operation can do -/

/-- What may become of a row when tenant `t` writes to a model. `connects` says that
the data to insert write the relation `tenant`, `moves` that the data to update
write the tenant in either way. -/
inductive ScopedChange (model : Model) (t : Uuid) (connects moves : Prop) :
    Option (Row β) → Option (Row β) → Prop where
  /-- The row stays, or there still is none. -/
  | kept (o : Option (Row β)) : ScopedChange model t connects moves o o
  /-- The row is new. -/
  | inserted {r : Row β} : connects ∨ r.tenantId = some t → ScopedChange model t connects moves none (some r)
  /-- A row that the tenant sees is updated. -/
  | updated {r r' : Row β} : Visible model t r.tenantId → moves ∨ r'.tenantId = r.tenantId →
      ScopedChange model t connects moves (some r) (some r')
  /-- A row that the tenant sees is deleted. -/
  | deleted {r : Row β} : Visible model t r.tenantId → ScopedChange model t connects moves (some r) none

section Statements

variable {E : Engine φ δ β} {model : Model} {t : Uuid} {connects moves : Prop} {s s' : Store β}

/-- A scoped `where` selects only rows that the tenant sees. -/
theorem visible_of_selects (hm : model ∈ tenantModels ∨ model ∈ sharedModels) {filter : Option (Where φ)}
    {i : ℕ} {r : Row β} (h : E.selects s (some (scopedWhere model filter t)) i r) :
    Visible model t r.tenantId := by
  have hmem : (i, r) ∈ matched (fun e => e.2.tenantId) (E.sat s) (scopedWhere model filter t) := by
    simpa [Engine.selects, matched] using h
  rw [matched_scopedWhere _ _ hm] at hmem
  exact hmem.2

theorem visible_of_target (hm : model ∈ tenantModels ∨ model ∈ sharedModels) {filter : Option (Where φ)}
    {i : ℕ} {r : Row β} (h : target E s (some (scopedWhere model filter t)) = some (i, r)) :
    ∀ j r', s.rows.find j = some r' → decide (j = i) = true → Visible model t r'.tenantId := by
  intro j r' hr' hj
  obtain ⟨hr, hsel⟩ := Table.find_of_first h
  have hji : j = i := of_decide_eq_true hj
  subst hji
  rw [hr, Option.some.injEq] at hr'
  subst hr'
  exact visible_of_selects hm hsel

/-- Without the relation, the tenant written is that of the key `tenantId`. -/
theorem writtenTenant_column {d : Data δ} {w : Option (Option Uuid)} {ts : List Uuid}
    (h : writtenTenant model s d = .ok (w, ts)) (hd : d.tenant = none) : w = d.tenantId := by
  unfold writtenTenant at h
  rw [hd] at h
  rcases ht : d.tenantId with _ | _ | u <;> rw [ht] at h
  · cases h
    rfl
  · dsimp only at h
    split at h <;> cases h
    rfl
  · cases h
    rfl

/-- Nothing but one new row. -/
theorem insertRow_scoped {d : Data δ} (h : insertRow E model s d = .ok s')
    (hd : connects ∨ (d.tenant = none ∧ d.tenantId = some (some t))) (i : ℕ) :
    s'.rows.find i = s.rows.find i ∨
      (s.rows.find i = none ∧ ∃ r, s'.rows.find i = some r ∧ (connects ∨ r.tenantId = some t)) := by
  unfold insertRow at h
  split at h
  · cases h
  · rename_i ts hw
    split at h <;> cases h
    refine (s.rows.find_add _ i).imp id fun hadd => ⟨hadd.1, _, hadd.2, hd.imp id fun hd => ?_⟩
    rw [← writtenTenant_column hw hd.1] at hd
    cases hd.2
  · rename_i u ts hw
    cases h
    refine (s.rows.find_add _ i).imp id fun hadd => ⟨hadd.1, _, hadd.2, hd.imp id fun hd => ?_⟩
    have := writtenTenant_column hw hd.1
    rw [hd.2, Option.some.injEq] at this
    exact this

/-- Nothing but new rows. -/
theorem insertMany_scoped {ds : List (Data δ)} (h : insertMany E model s ds = .ok s')
    (hd : ∀ d ∈ ds, connects ∨ d.tenantId = some (some t)) (i : ℕ) :
    s'.rows.find i = s.rows.find i ∨
      (s.rows.find i = none ∧ ∃ r, s'.rows.find i = some r ∧ (connects ∨ r.tenantId = some t)) := by
  induction ds generalizing s with
  | nil =>
    cases h
    exact .inl rfl
  | cons d ds ih =>
    unfold insertMany at h
    split at h
    · cases h
    · rename_i hrel
      have hrel : d.tenant = none := Option.not_isSome_iff_eq_none.mp hrel
      split at h
      · cases h
      · rename_i s₁ hs₁
        have hone := insertRow_scoped hs₁ ((hd d List.mem_cons_self).imp id fun ht => ⟨hrel, ht⟩) i
        have hrest := ih h fun d' hd' => hd d' (List.mem_cons_of_mem _ hd')
        -- a row inserted by the first insertion is kept by the others
        rcases hone with hone | ⟨hnone, r, hr, ht⟩
        · rw [hone] at hrest
          exact hrest
        · rcases hrest with hrest | ⟨hnone', -⟩
          · exact .inr ⟨hnone, r, hrest.trans hr, ht⟩
          · rw [hr] at hnone'
            cases hnone'

theorem scopedChange_of_inserted {i : ℕ}
    (h : s'.rows.find i = s.rows.find i ∨
      (s.rows.find i = none ∧ ∃ r, s'.rows.find i = some r ∧ (connects ∨ r.tenantId = some t))) :
    ScopedChange model t connects moves (s.rows.find i) (s'.rows.find i) := by
  rcases h with h | ⟨hnone, r, hr, ht⟩
  · rw [h]
    exact .kept _
  · rw [hnone, hr]
    exact .inserted ht

theorem updateRows_scoped {p : ℕ → Row β → Bool} {d : Data δ} (h : updateRows E model s p d = .ok s')
    (hp : ∀ i r, s.rows.find i = some r → p i r = true → Visible model t r.tenantId)
    (hd : moves ∨ (d.tenant = none ∧ d.tenantId = none)) (i : ℕ) :
    ScopedChange model t connects moves (s.rows.find i) (s'.rows.find i) := by
  unfold updateRows at h
  split at h
  · cases h
  · rename_i w ts hw
    cases h
    rw [Table.find_modify]
    cases hr : s.rows.find i with
    | none => exact .kept _
    | some r =>
      by_cases hsel : p i r = true
      · rw [Option.map_some, if_pos hsel]
        refine .updated (hp i r hr hsel) (hd.imp id fun hd => ?_)
        rw [writtenTenant_column hw hd.1, hd.2]
        rfl
      · rw [Option.map_some, if_neg hsel]
        exact .kept _

theorem remove_scoped {p : ℕ → Row β → Bool}
    (hp : ∀ i r, s.rows.find i = some r → p i r = true → Visible model t r.tenantId) (i : ℕ) :
    ScopedChange model t connects moves (s.rows.find i) ((s.rows.remove p).find i) := by
  rw [Table.find_remove]
  cases hr : s.rows.find i with
  | none => exact .kept _
  | some r =>
    by_cases hsel : p i r = true
    · rw [Option.filter_some, if_neg (by simp [hsel])]
      exact .deleted (hp i r hr hsel)
    · rw [Option.filter_some, if_pos (by simpa using hsel)]
      exact .kept _

end Statements

/-- The data that an operation inserts. -/
def Args.inserting (operation : Operation) (a : Args φ δ κ) : Option (OneOrMany (Data δ)) :=
  if operation ∈ createOps then a.data else if operation = .upsert then a.create else none

/-- The data that an operation updates rows with. -/
def Args.updating (operation : Operation) (a : Args φ δ κ) : Option (OneOrMany (Data δ)) :=
  if operation ∈ whereWriteOps then a.data else if operation = .upsert then a.update.map .one else none

/-- The data, of one row, write the relation `tenant`. -/
def WritesRelation (data : Option (OneOrMany (Data δ))) : Prop := ∃ d, data = some (.one d) ∧ d.tenant ≠ none

/-- The data write the tenant, by its column or by the relation. -/
def WritesTenant (data : Option (OneOrMany (Data δ))) : Prop :=
  ∃ d, data = some (.one d) ∧ (d.tenantId ≠ none ∨ d.tenant ≠ none)

theorem not_writesTenant {d : Data δ} (h : ¬WritesTenant (some (.one d))) : d.tenant = none ∧ d.tenantId = none := by
  by_contra hd
  refine h ⟨d, rfl, ?_⟩
  tauto

section Exec

variable {E : Engine φ δ β} {model : Model} (hm : model ∈ tenantModels ∨ model ∈ sharedModels) {t : Uuid}
  {s s' : Store β} {connects : Prop}

include hm

theorem updateOne_scoped {filter : Option (Where φ)} {data : Option (OneOrMany (Data δ))}
    (h : updateOne E model s (some (scopedWhere model filter t)) data = .ok s') (i : ℕ) :
    ScopedChange model t connects (WritesTenant data) (s.rows.find i) (s'.rows.find i) := by
  rcases data with _ | d | ds
  · cases h
  · simp only [updateOne] at h
    split at h
    · rename_i j r htgt
      exact updateRows_scoped h (visible_of_target hm htgt) (or_iff_not_imp_left.mpr not_writesTenant) i
    · cases h
  · cases h

theorem updateMany_scoped {filter : Option (Where φ)} {data : Option (OneOrMany (Data δ))}
    (h : updateMany E model s (some (scopedWhere model filter t)) data = .ok s') (i : ℕ) :
    ScopedChange model t connects (WritesTenant data) (s.rows.find i) (s'.rows.find i) := by
  rcases data with _ | d | ds
  · cases h
  · simp only [updateMany] at h
    split at h
    · cases h
    · exact updateRows_scoped h (fun _ _ _ hsel => visible_of_selects hm hsel)
        (or_iff_not_imp_left.mpr not_writesTenant) i
  · cases h

theorem upsertOne_scoped {filter : Option (Where φ)} {create : Option (OneOrMany (Data δ))}
    {update : Option (Data δ)}
    (h : upsertOne E model s (some (scopedWhere model filter t)) (scopedData create t) update = .ok s') (i : ℕ) :
    ScopedChange model t (WritesRelation create) (WritesTenant (update.map .one)) (s.rows.find i)
      (s'.rows.find i) := by
  unfold upsertOne at h
  split at h
  · rename_i c u hc
    split at h
    · rename_i j r htgt
      exact updateRows_scoped h (visible_of_target hm htgt) (or_iff_not_imp_left.mpr not_writesTenant) i
    · exact scopedChange_of_inserted (insertRow_scoped h (scopedData_one hc) i)
  · cases h

omit hm in
theorem createMany_scoped {data : Option (OneOrMany (Data δ))}
    (h : createMany E model s (scopedData data t) = .ok s') (i : ℕ) :
    ScopedChange model t (WritesRelation data) connects (s.rows.find i) (s'.rows.find i) := by
  apply scopedChange_of_inserted
  unfold createMany at h
  split at h
  · rename_i d hd
    apply insertMany_scoped h
    rintro _ (_ | ⟨_, ⟨⟩⟩)
    exact (scopedData_one hd).imp id And.right
  · rename_i ds hds
    exact insertMany_scoped h (fun d hd => .inr (scopedData_many hds d hd)) i
  · cases h

/-- **One row under a scoped operation**: whatever the operation and its arguments, each
row is kept, or new and of the tenant, or one the tenant sees. -/
theorem statements_scoped {operation : Operation} {args : Option (Args φ δ κ)}
    (h : statements E model operation (applyTenantScope model operation args t) s = .ok s') (i : ℕ) :
    ScopedChange model t (WritesRelation ((args.getD {}).inserting operation))
      (WritesTenant ((args.getD {}).updating operation)) (s.rows.find i) (s'.rows.find i) := by
  have hread : operation ∈ readOps → s' = s := by
    intro ho
    revert h
    cases operation <;> simp [readOps, statements] at ho ⊢ <;> exact fun h => h.symm
  cases operation
  case create =>
    rw [applyTenantScope_create hm args t (by decide)] at h
    unfold statements at h
    dsimp only at h
    split at h
    · rename_i d hd
      exact scopedChange_of_inserted (insertRow_scoped h (scopedData_one hd) i)
    · cases h
  case createMany =>
    rw [applyTenantScope_create hm args t (by decide)] at h
    exact createMany_scoped h i
  case createManyAndReturn =>
    rw [applyTenantScope_create hm args t (by decide)] at h
    exact createMany_scoped h i
  case update =>
    rw [applyTenantScope_select hm args t (by decide)] at h
    exact updateOne_scoped hm h i
  case updateMany =>
    rw [applyTenantScope_select hm args t (by decide)] at h
    exact updateMany_scoped hm h i
  case updateManyAndReturn =>
    rw [applyTenantScope_select hm args t (by decide)] at h
    exact updateMany_scoped hm h i
  case delete =>
    rw [applyTenantScope_select hm args t (by decide)] at h
    unfold statements at h
    dsimp only at h
    split at h
    · rename_i j r htgt
      cases h
      exact remove_scoped (visible_of_target hm htgt) i
    · cases h
  case deleteMany =>
    rw [applyTenantScope_select hm args t (by decide)] at h
    cases h
    exact remove_scoped (fun _ _ _ hsel => visible_of_selects hm hsel) i
  case upsert =>
    rw [applyTenantScope_upsert hm] at h
    exact upsertOne_scoped hm h i
  all_goals
    rw [hread (by decide)]
    exact .kept _

omit hm in
/-- An operation that succeeds is its statements, and the constraints hold. -/
theorem exec_ok {operation : Operation} {a : Args φ δ κ} (h : exec E model operation a s = .ok s') :
    statements E model operation a s = .ok s' ∧ E.admits s' = true := by
  unfold exec at h
  split at h
  · cases h
  · split at h <;> cases h
    exact ⟨‹_›, ‹_›⟩

/-- **Writes are confined to what the tenant sees.** An operation whose arguments have
been scoped changes or deletes only rows of the tenant and, in a shared model, rows
without a tenant; a row it inserts is of the tenant unless the data write the relation
`tenant`; and a row it updates keeps its tenant unless the data write it. -/
theorem exec_scoped {operation : Operation} {args : Option (Args φ δ κ)}
    (h : exec E model operation (applyTenantScope model operation args t) s = .ok s') :
    (∀ i r, s.rows.find i = some r → s'.rows.find i ≠ some r →
      r.tenantId = some t ∨ (model ∈ sharedModels ∧ r.tenantId = none)) ∧
    (∀ i r', s.rows.find i = none → s'.rows.find i = some r' →
      ¬WritesRelation ((args.getD {}).inserting operation) → r'.tenantId = some t) ∧
    ∀ i r r', s.rows.find i = some r → s'.rows.find i = some r' →
      ¬WritesTenant ((args.getD {}).updating operation) → r'.tenantId = r.tenantId := by
  have hchange := statements_scoped hm (exec_ok h).1
  refine ⟨fun i r hr hne => ?_, fun i r' hnone hr' hrel => ?_, fun i r r' hr hr' hmove => ?_⟩
  · have hi := hchange i
    rw [hr] at hi
    generalize s'.rows.find i = o at hi hne
    cases hi with
    | kept => exact absurd rfl hne
    | updated hvis => exact hvis
    | deleted hvis => exact hvis
  · have hi := hchange i
    rw [hnone, hr'] at hi
    cases hi with
    | inserted ht => exact ht.resolve_left hrel
  · have hi := hchange i
    rw [hr, hr'] at hi
    cases hi with
    | kept => rfl
    | updated _ ht => exact ht.resolve_left hmove

end Exec

/-- Only rows of the tenant change, and what is inserted or updated is of the tenant. -/
def WriteConfined (t : Uuid) (s s' : Store β) : Prop :=
  (∀ i r, s.rows.find i = some r → s'.rows.find i ≠ some r → r.tenantId = some t) ∧
    ∀ i r', s'.rows.find i = some r' → s.rows.find i ≠ some r' → r'.tenantId = some t

/-- An engine for rows with one other column, whose filters are always true. -/
def plainEngine : Engine Unit ℕ ℕ where
  sat _ _ _ := .yes
  init n := n
  assign n _ := n
  admits _ := true

/-- A library with one shared item, in a system with two tenants. -/
def sharedShelf : Store ℕ := ⟨[1, 2], Table.empty.add ⟨none, 0⟩⟩

/-- The writes are not confined to the rows of the tenant alone: shared items are
updated, and data that write the relation `tenant` are taken as they are. -/
theorem exec_not_confined :
    (∃ s', exec plainEngine .libraryItem .updateMany
        (applyTenantScope .libraryItem .updateMany
          (some ({ data := some (.one { fields := 7 }) } : Args Unit ℕ Unit)) 1) sharedShelf = .ok s' ∧
      ¬WriteConfined 1 sharedShelf s') ∧
    ∃ s', exec plainEngine .libraryItem .create
        (applyTenantScope .libraryItem .create
          (some ({ data := some (.one { tenant := some (.connect 2), fields := 7 }) } : Args Unit ℕ Unit)) 1)
        sharedShelf = .ok s' ∧
      ¬WriteConfined 1 sharedShelf s' := by
  refine ⟨⟨⟨[1, 2], Table.empty.add ⟨none, 7⟩⟩, rfl, fun h => ?_⟩,
    ⟨⟨[1, 2], (Table.empty.add ⟨none, 0⟩).add ⟨some 2, 7⟩⟩, rfl, fun h => ?_⟩⟩
  · exact absurd (h.1 0 ⟨none, 0⟩ (by decide) (by decide)) (by decide)
  · exact absurd (h.2 1 ⟨some 2, 7⟩ (by decide) (by decide)) (by decide)

/-- The theorem at the update of the shared item: the row that changes has no tenant. -/
theorem exec_scoped_shelf :
    ∃ s', exec plainEngine .libraryItem .updateMany
        (applyTenantScope .libraryItem .updateMany
          (some ({ data := some (.one { fields := 7 }) } : Args Unit ℕ Unit)) 1) sharedShelf = .ok s' ∧
      ∀ i r, sharedShelf.rows.find i = some r → s'.rows.find i ≠ some r →
        r.tenantId = some 1 ∨ (Model.libraryItem ∈ sharedModels ∧ r.tenantId = none) :=
  have h : exec plainEngine .libraryItem .updateMany
      (applyTenantScope .libraryItem .updateMany
        (some ({ data := some (.one { fields := 7 }) } : Args Unit ℕ Unit)) 1) sharedShelf =
      .ok ⟨[1, 2], Table.empty.add ⟨none, 7⟩⟩ := rfl
  ⟨_, h, (exec_scoped (.inr (by decide)) h).1⟩

end AuditSphere.Prisma
